import Wideband.Array.Locked
import Wideband.Proofs.Lock.Phasing

namespace Wideband

open Lock Replay

/-- How a receiver hears a signal: by how many samples it is ahead, and turned by which angle. -/
structure Skew where
  delay : ℤ
  angle : ℝ

namespace Skew

noncomputable def stream (signal : Array ℂ) (rate : ℕ) (skew : Skew) : Replay ℂ :=
  ((Replay.ofSignal signal rate).delayed skew.delay).turned skew.angle

noncomputable def factor (skew : Skew) : ℂ :=
  Complex.exp (skew.angle * Complex.I)

theorem norm_factor (skew : Skew) : ‖skew.factor‖ = 1 :=
  Complex.norm_exp_ofReal_mul_I skew.angle

def place (length : ℕ) (skew : Skew) : ℕ :=
  (skew.delay % length).toNat

theorem dvd_place {length : ℕ} (room : 0 < length) (skew : Skew) :
    (length : ℤ) ∣ skew.place length - skew.delay := by
  have above := Int.emod_nonneg skew.delay (by omega : (length : ℤ) ≠ 0)
  rw [place, Int.toNat_of_nonneg above, ← dvd_neg, neg_sub]
  exact Int.dvd_self_sub_emod

noncomputable def reader (signal : Array ℂ) (rate : ℕ) (skew : Skew) (position : ℕ) :
    Converted (Replay ℂ) ℂ :=
  ⟨standing signal rate skew.factor position, none⟩

theorem stream_standing {signal : Array ℂ} (room : 0 < signal.size) (rate : ℕ) (skew : Skew) :
    skew.stream signal rate = standing signal rate skew.factor (skew.place signal.size) := by
  have above := Int.emod_nonneg skew.delay (by omega : (signal.size : ℤ) ≠ 0)
  have below := Int.emod_lt_of_pos skew.delay (by omega : (0 : ℤ) < signal.size)
  have inside : skew.place signal.size < signal.size := by
    unfold place
    omega
  simp only [stream, ofSignal, delayed, turned, standing, Nat.mod_eq_of_lt inside]
  simp [place, factor]

theorem reader_congr {signal : Array ℂ} {place other : ℕ}
    (same : (signal.size : ℤ) ∣ (other : ℤ) - place) (rate : ℕ) (skew : Skew) :
    skew.reader signal rate other = skew.reader signal rate place := by
  have equal : place % signal.size = other % signal.size := Nat.modEq_iff_dvd.mpr same
  simp only [reader, Replay.standing, equal]

theorem plays_multiplied {signal : Array ℂ} (room : 0 < signal.size) (rate : ℕ)
    {reference skew : Skew} {multiplier : ℂ}
    (turned : skew.factor * multiplier = reference.factor) :
    Source.Plays
      (fun position => (⟨skew.reader signal rate position, multiplier⟩ :
        Rotated (Converted (Replay ℂ) ℂ) ℂ))
      (content signal reference.factor) := by
  have own := Rotated.plays_rotated
    (Converted.plays_converted (Replay.plays room rate skew.factor)) multiplier
  have same : (fun position => content signal skew.factor position * multiplier) =
      content signal reference.factor := by
    funext position
    rw [content, mul_assoc, turned, content]
  rwa [same] at own

theorem factor_mul_rotator (reference skew : Skew) :
    skew.factor * (reference.factor * starRingEnd ℂ skew.factor) = reference.factor := by
  have unit : skew.factor * starRingEnd ℂ skew.factor = 1 := by
    rw [Complex.mul_conj, Complex.normSq_eq_norm_sq, norm_factor]
    norm_num
  rw [mul_left_comm, unit, mul_one]

theorem factor_mul_conj (reference skew : Skew) :
    reference.factor * starRingEnd ℂ skew.factor =
      Complex.exp (-(skew.angle - reference.angle) * Complex.I) := by
  rw [factor, factor, ← Complex.exp_conj, ← Complex.exp_add]
  congr 1
  simp only [map_mul, Complex.conj_ofReal, Complex.conj_I]
  ring

end Skew

section Receivers

variable {τ F : Type} [Receiver τ (Replay ℂ) F] {signal : Array ℂ} {rate : ℕ}

/-- A receiver that tells its rate, can be switched, and hears a signal with a skew. -/
structure Hears (signal : Array ℂ) (rate : ℕ) (skew : Skew) (receiver : τ) : Prop where
  paced : Receiver.rate receiver = .ok rate
  starts : ∃ noisy started quiet,
    Receiver.switch true receiver = (.ok (), noisy) ∧
      Receiver.start noisy = (.ok (skew.stream signal rate), started) ∧
      Receiver.switch false started = (.ok (), quiet)

theorem startEach_hears (room : 0 < signal.size) {skews : List Skew} {receivers : List τ}
    (hears : List.Forall₂ (Hears signal rate) skews receivers) :
    ∃ noisy started quiet,
      Receiver.each (Receiver.switch true) receivers = (.ok (), noisy) ∧
        LockedArray.startEach noisy =
          (.ok (), skews.map fun skew => skew.reader signal rate (skew.place signal.size), started) ∧
        Receiver.each (Receiver.switch false) started = (.ok (), quiet) := by
  induction hears with
  | nil => exact ⟨[], [], [], rfl, rfl, rfl⟩
  | cons hear hears ih =>
      obtain ⟨noisy, started, quiet, on, starts, off⟩ := ih
      obtain ⟨ownNoisy, ownStarted, ownQuiet, ownOn, ownStart, ownOff⟩ := hear.starts
      refine ⟨ownNoisy :: noisy, ownStarted :: started, ownQuiet :: quiet, ?_, ?_, ?_⟩
      · simp only [Receiver.each, ownOn, on]
      · simp only [LockedArray.startEach, ownStart, starts, Skew.stream_standing room]
        rfl
      · simp only [Receiver.each, ownOff, off]

theorem rates_hears {skews : List Skew} {receivers : List τ}
    (hears : List.Forall₂ (Hears signal rate) skews receivers) :
    ∀ answer ∈ receivers.map Receiver.rate, answer = .ok rate := by
  induction hears with
  | nil => nofun
  | cons hear hears ih => simpa [hear.paced] using ih

end Receivers

structure Listener where
  signal : Array ℂ
  rate : ℕ
  skew : Skew
  noise : Option Bool

namespace Listener

noncomputable instance : Receiver Listener (Replay ℂ) ℕ where
  rate listener := .ok listener.rate
  setRate listener rate := (.ok (), { listener with rate })
  tune listener _ := (.ok (), listener)
  start listener := (.ok (listener.skew.stream listener.signal listener.rate), listener)
  switchNoise listener := listener.noise.map fun _ enabled =>
    (.ok (), { listener with noise := some enabled })

theorem hears (listener : Listener) :
    Hears listener.signal listener.rate listener.skew listener := by
  cases listener with
  | mk signal rate skew noise =>
      cases noise with
      | none => exact ⟨rfl, _, _, _, rfl, rfl, rfl⟩
      | some _ => exact ⟨rfl, _, _, _, rfl, rfl, rfl⟩

end Listener

section Streams

variable {π : Type} {planner : Planner ℂ π} {signal : Array ℂ} {settings : Lock.Settings}
  {first : Skew} {rest : List Skew}

theorem scene_skews (exact : planner.IsFourier) (reliable : planner.Reliable)
    (distinct : Distinct signal) (long : 2 ≤ signal.size)
    (length : settings.length = signal.size) (rate : ℕ) :
    Scene planner signal settings (Skew.reader signal rate) Skew.factor where
  exact := exact
  reliable := reliable
  distinct := distinct
  long := long
  length := length
  plays skew := Converted.plays_converted
    (Replay.plays (Nat.lt_of_lt_of_le (by decide) long) rate skew.factor)
  unit := Skew.norm_factor
  format _ _ := rfl
  rate := ⟨rate, fun _ _ => rfl⟩

def Skew.standing (length : ℕ) (skew : Skew) : Standing Skew :=
  ⟨skew, skew.place length, 0⟩

def settled (length : ℕ) (first : Skew) (rest : List Skew) (skew : Skew) : Standing Skew :=
  (skew.standing length).skip (Standing.behind length (first.place length)
    ((first :: rest).map (Skew.standing length)) (skew.standing length))

theorem settle_skews (length : ℕ) (first : Skew) (rest : List Skew) :
    Standing.settle length (first.place length) ((first :: rest).map (Skew.standing length)) =
      (first :: rest).map (settled length first rest) :=
  List.map_map

theorem dvd_settled {length : ℕ} (room : 0 < length) {skew other : Skew}
    (member : skew ∈ first :: rest) (others : other ∈ first :: rest) :
    (length : ℤ) ∣ ((settled length first rest other).place : ℤ) -
      (settled length first rest skew).place := by
  have among : ∀ skew ∈ first :: rest, settled length first rest skew ∈
      Standing.settle length (first.place length) ((first :: rest).map (Skew.standing length)) := by
    intro skew member
    rw [settle_skews]
    exact List.mem_map_of_mem member
  exact Standing.dvd_settle room (among skew member) (among other others)

theorem cast_drained {length : ℕ} {skew : Skew} (member : skew ∈ first :: rest) :
    ((settled length first rest skew).drained : ℤ) =
      Work.largest (Standing.leads length (first.place length)
        ((first :: rest).map (Skew.standing length))) -
      lead length (first.place length) (skew.place length) := by
  let standings := (first :: rest).map (Skew.standing length)
  have among : skew.standing length ∈ standings := List.mem_map_of_mem member
  have behind : (Standing.behind length (first.place length) standings (skew.standing length) : ℤ) =
      _ := Standing.cast_behind among
  simpa [settled, Standing.skip, Skew.standing, standings] using behind

theorem drained_modEq {length : ℕ} (room : 0 < length) {skew : Skew}
    (member : skew ∈ first :: rest) :
    ((settled length first rest skew).drained : ℤ) - (settled length first rest first).drained ≡
      first.delay - skew.delay [ZMOD length] := by
  have led := dvd_lead room (first.place length) (skew.place length)
  have apart := dvd_sub (skew.dvd_place room) (first.dvd_place room)
  have same : first.delay - skew.delay -
      (((settled length first rest skew).drained : ℤ) -
        (settled length first rest first).drained) =
      lead length (first.place length) (skew.place length) -
          ((skew.place length : ℤ) - first.place length) +
        (((skew.place length : ℤ) - skew.delay) - (first.place length - first.delay)) := by
    rw [cast_drained member, cast_drained List.mem_cons_self, lead_self]
    ring
  rw [Int.modEq_iff_dvd, same]
  exact dvd_add led apart

theorem exists_drained_zero (length : ℕ) (first : Skew) (rest : List Skew) :
    ∃ skew ∈ first :: rest, (settled length first rest skew).drained = 0 := by
  have some : (first :: rest).map (Skew.standing length) ≠ [] := by simp
  obtain ⟨standing, member, zero⟩ := Standing.exists_behind_zero length (first.place length) some
  obtain ⟨skew, among, rfl⟩ := List.mem_map.mp member
  refine ⟨skew, among, ?_⟩
  simpa [settled, Standing.skip, Skew.standing] using zero

theorem lockStreams_skews {rate : ℕ}
    (scene : Scene planner signal settings (Skew.reader signal rate) Skew.factor)
    (checked : settings.check = .ok ()) (patient : ∀ limit ∈ settings.maxAttempts, 2 ≤ limit)
    (first : Skew) (rest : List Skew) :
    ∃ attempts place, attempts ≤ 2 ∧
      LockedArray.lockStreams planner settings
          ((first :: rest).map fun skew => skew.reader signal rate (skew.place signal.size)) false =
        ⟨.ok (⟨attempts, 0,
              (first :: rest).map fun skew => (settled signal.size first rest skew).drained⟩,
            1 :: rest.map fun skew => first.factor * starRingEnd ℂ skew.factor),
          (first :: rest).map fun skew => skew.reader signal rate place, false⟩ := by
  have room := scene.room
  let moved (count : ℕ) (skew : Skew) : Standing Skew :=
    (settled signal.size first rest skew).read count
  let streams (count : ℕ) : List (Converted (Replay ℂ) ℂ) :=
    (first :: rest).map fun skew => skew.reader signal rate (moved count skew).place
  have level : ∀ count, ∀ skew ∈ first :: rest,
      (signal.size : ℤ) ∣ ((moved count skew).place : ℤ) - (moved count first).place := by
    intro count skew member
    have apart := dvd_settled room List.mem_cons_self member
    simpa [moved, Standing.read] using apart
  obtain ⟨attempts, count, few, locked⟩ := synchronize_converges scene checked patient
    (first.standing signal.size) (rest.map (Skew.standing signal.size)) (by simp [Skew.standing])
  have ran : synchronize planner settings
      ((first :: rest).map fun skew => skew.reader signal rate (skew.place signal.size)) false =
      ⟨.ok ⟨attempts, 0,
        (first :: rest).map fun skew => (settled signal.size first rest skew).drained⟩,
        streams count, false⟩ := by
    change synchronize planner settings (((first :: rest).map (Skew.standing signal.size)).map
        fun standing => standing.item.reader signal rate standing.place) false =
      ⟨.ok ⟨attempts, 0, (Standing.settle signal.size (first.place signal.size)
          ((first :: rest).map (Skew.standing signal.size))).map Standing.drained⟩,
        ((Standing.settle signal.size (first.place signal.size)
          ((first :: rest).map (Skew.standing signal.size))).map (Standing.read count)).map
          fun standing => standing.item.reader signal rate standing.place, false⟩ at locked
    rw [settle_skews] at locked
    simp only [List.map_map, Function.comp_def] at locked
    exact locked
  have phased : readRotators (streams count) settings.length false =
      ⟨.ok (1 :: rest.map fun skew => first.factor * starRingEnd ℂ skew.factor),
        streams (count + signal.size), false⟩ := by
    have others : ∀ standing ∈ rest.map (moved count),
        (signal.size : ℤ) ∣ (standing.place : ℤ) - (moved count first).place := by
      intro standing member
      obtain ⟨skew, among, rfl⟩ := List.mem_map.mp member
      exact level count skew (List.mem_cons_of_mem _ among)
    have found := scene.readRotators others
    rw [← List.map_cons] at found
    simp only [List.map_map, Function.comp_def] at found
    refine found.trans ?_
    simp only [streams, moved, Standing.read, Nat.add_assoc]
    rfl
  -- Places that differ by whole turns are one place of the signal.
  have aligned : streams (count + signal.size) =
      (first :: rest).map fun skew =>
        skew.reader signal rate (moved (count + signal.size) first).place := by
    refine List.map_congr_left fun skew member => ?_
    exact Skew.reader_congr (level _ skew member) rate skew
  refine ⟨attempts, (moved (count + signal.size) first).place, few, ?_⟩
  simp only [LockedArray.lockStreams, ran, phased, Except.map, aligned]

/-- A session whose streams all play the signal from one place on, in the carrier phase of the first
one, and whose books say how that came about. -/
structure Session.Coherent (signal : Array ℂ) (first : Skew) (rest : List Skew)
    (session : Session (Replay ℂ) ℂ) : Prop where
  attempts : session.report.attempts ≤ 2
  rejected : session.report.rejected = 0
  drained : ∃ reference others, session.report.drained = reference :: others ∧
    List.Forall₂ (fun (skew : Skew) (drained : ℕ) =>
      (drained : ℤ) - reference ≡ first.delay - skew.delay [ZMOD signal.size]) rest others
  least : 0 ∈ session.report.drained
  rotators : session.rotators =
    1 :: rest.map fun skew => Complex.exp (-(skew.angle - first.angle) * Complex.I)
  streams : session.readers.length = rest.length + 1
  inStep : ∃ place, ∀ reader ∈ session.readers, ∃ stream, stream place = reader ∧
    Source.Plays stream (content signal first.factor)
  alike : ∀ count, ∃ samples : Array ℂ, samples.size = count ∧
    ∀ reader ∈ session.readers, ∀ out : Array ℂ, out.size = count →
      (Source.fill reader (.complex out)).outcome = .ok count ∧
        (Source.fill reader (.complex out)).view = .complex samples

end Streams

namespace LockedArray

variable {τ F π : Type} [Receiver τ (Replay ℂ) F] {signal : Array ℂ} {rate : ℕ}
  {array : LockedArray τ ℂ π} {first : Skew} {rest : List Skew}

/-- Receivers that hear one signal, each with a delay and a carrier phase of its own, are locked in
at most two rounds, and then all their streams play the same samples. -/
theorem start_coherent (exact : array.planner.IsFourier) (reliable : array.planner.Reliable)
    (distinct : Distinct signal) (long : 2 ≤ signal.size)
    (hears : List.Forall₂ (Hears signal rate) (first :: rest) array.receivers)
    (checked : array.settings.check = .ok ()) (length : array.settings.length = signal.size)
    (patient : ∀ limit ∈ array.settings.maxAttempts, 2 ≤ limit)
    (live : array.cancelled = false) :
    ∃ session, (start array).outcome = .ok session ∧
      Session.Coherent signal first rest session := by
  have room : 0 < signal.size := Nat.lt_of_lt_of_le (by decide) long
  obtain ⟨noisy, started, quieted, on, begun, off⟩ := startEach_hears room hears
  obtain ⟨attempts, place, few, locked⟩ := lockStreams_skews
    (scene_skews exact reliable distinct long length rate) checked patient first rest
  have rates : array.rate = .ok rate := by
    have some : array.receivers.map Receiver.rate ≠ [] := by
      intro none
      rw [List.map_eq_nil_iff] at none
      rw [none] at hears
      cases hears
    exact sharedRate_same some (rates_hears hears)
  have switched : array.switchNoise true = (.ok (), { array with receivers := noisy }) := by
    simp only [switchNoise, on]
  let session : Session (Replay ℂ) ℂ := {
    readers := List.zipWith Rotated.mk
      ((first :: rest).map fun skew => skew.reader signal rate place)
      (1 :: rest.map fun skew => first.factor * starRingEnd ℂ skew.factor)
    rotators := 1 :: rest.map fun skew => first.factor * starRingEnd ℂ skew.factor
    report := ⟨attempts, 0,
      (first :: rest).map fun skew => (settled signal.size first rest skew).drained⟩ }
  have done : lock { array with receivers := noisy } =
      (⟨.ok session, [], { array with receivers := started, cancelled := false }⟩ :
        Start τ (Replay ℂ) ℂ π) := by
    simp only [lock, begun, live, locked]
    rfl
  have outcome : (start array).outcome = .ok session := by
    have passed : (do array.settings.check; array.rate : Except Error ℕ) = .ok rate := by
      simp only [checked, rates, bind, Except.bind]
    have silenced : switchNoise
        { array with receivers := started, cancelled := false } false =
        (.ok (), { array with receivers := quieted, cancelled := false }) := by
      simp only [switchNoise, off]
    simp only [start, passed, switched, done, quiet, silenced]
  have inStep : ∀ reader ∈ session.readers, ∃ stream, stream place = reader ∧
      Source.Plays stream (content signal first.factor) := by
    have plays : ∀ (skew : Skew) multiplier, skew.factor * multiplier = first.factor →
        ∃ stream, stream place = (⟨skew.reader signal rate place, multiplier⟩ :
            Rotated (Converted (Replay ℂ) ℂ) ℂ) ∧
          Source.Plays stream (content signal first.factor) :=
      fun skew multiplier turned => ⟨_, rfl, Skew.plays_multiplied room rate turned⟩
    intro reader member
    simp only [session, List.map_cons, List.zipWith_cons_cons, List.zipWith_map, List.zipWith_self,
      List.mem_cons, List.mem_map] at member
    rcases member with rfl | ⟨skew, _, rfl⟩
    · exact plays first 1 (mul_one _)
    · exact plays skew _ (Skew.factor_mul_rotator first skew)
  refine ⟨session, outcome, {
    attempts := few
    rejected := rfl
    drained := ⟨_, _, rfl, ?_⟩
    least := ?_
    rotators := ?_
    streams := ?_
    inStep := ⟨place, inStep⟩
    alike := ?_ }⟩
  · rw [List.forall₂_map_right_iff, List.forall₂_same]
    exact fun skew member => drained_modEq room (List.mem_cons_of_mem _ member)
  · obtain ⟨skew, member, zero⟩ := exists_drained_zero signal.size first rest
    exact List.mem_map.mpr ⟨skew, member, zero⟩
  · simp only [session, Skew.factor_mul_conj]
  · simp [session]
  · intro count
    refine ⟨Source.stretch (content signal first.factor) place count,
      Source.size_stretch _ _ _, fun reader member out size => ?_⟩
    obtain ⟨stream, rfl, plays⟩ := inStep reader member
    rw [plays.fill, size]
    exact ⟨rfl, rfl⟩

theorem start_coherent_pulse :
    ∃ session,
      (start (⟨[⟨#[1, 0], 48000, ⟨0, 0⟩, none⟩, ⟨#[1, 0], 48000, ⟨3, 1⟩, some false⟩],
          Planner.ofKernel Dft.transform, ⟨2, 3, some 2⟩, false⟩ :
        LockedArray Listener ℂ Plan)).outcome = .ok session ∧
      Session.Coherent #[1, 0] ⟨0, 0⟩ [⟨3, 1⟩] session := by
  let silent : Listener := ⟨#[1, 0], 48000, ⟨0, 0⟩, none⟩
  let noisy : Listener := ⟨#[1, 0], 48000, ⟨3, 1⟩, some false⟩
  have hears : List.Forall₂ (Hears #[1, 0] 48000) [⟨0, 0⟩, ⟨3, 1⟩] [silent, noisy] :=
    .cons silent.hears (.cons noisy.hears .nil)
  exact start_coherent Planner.isFourier_ofKernel (Planner.reliable_ofKernel _) distinct_pulse
    (by simp) hears rfl rfl (by simp) rfl

end LockedArray

end Wideband
