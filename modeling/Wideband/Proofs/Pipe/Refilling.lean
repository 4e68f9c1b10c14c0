import Mathlib.Data.List.TakeWhile
import Wideband.Proofs.Pipe.Ledger

namespace Wideband

/-!
How far a read that fills its buffer gets. It reads again and again, and takes an answer of no samples
for the end of the stream. A pipe gives that answer where the next block is an empty one
(`Pipe.Hollow`), which any writer may queue. So it is the samples in front of the first empty block
(`Pipe.reach`) that fill a buffer, and where no empty block was written these are all that the pipe
holds.
-/

variable {C : Type}

namespace Pipe

variable {pipe : Pipe C} {out front rest : Array C}

def Hollow (pipe : Pipe C) : Prop :=
  pipe.pending.size = 0 ∧ ∃ rest, pipe.channel.blocks = #[] :: rest

/-- The samples in front of the first empty block. -/
def reach (pipe : Pipe C) : List C :=
  pipe.pending.toList ++
    (pipe.channel.blocks.takeWhile fun block => decide (0 < block.size)).flatMap Array.toList

theorem reach_refill (solid : ¬pipe.Hollow) : pipe.refill.reach = pipe.reach := by
  unfold refill
  split
  · rename_i spent
    split
    · rename_i block rest queued
      have some : 0 < block.size := by
        refine Nat.pos_of_ne_zero fun empty => solid ⟨spent, rest, ?_⟩
        rw [queued, Array.eq_empty_of_size_eq_zero empty]
      have nothing : pipe.pending.toList = [] := by simpa using spent
      simp [reach, queued, some, nothing]
    · rfl
  · rfl

theorem pending_refill (solid : ¬pipe.Hollow)
    (stocked : pipe.pending.size = 0 → pipe.channel.blocks ≠ []) : 0 < pipe.refill.pending.size := by
  unfold refill
  split
  · rename_i spent
    split
    · rename_i block rest queued
      refine Nat.pos_of_ne_zero fun (empty : block.size = 0) => solid ⟨spent, rest, ?_⟩
      rw [queued, Array.eq_empty_of_size_eq_zero empty]
    · rename_i none
      exact absurd none (stocked spent)
  · rename_i some
    exact Nat.pos_of_ne_zero some

theorem Hollow.refill (hollow : pipe.Hollow) : pipe.refill.pending = #[] := by
  obtain ⟨spent, rest, queued⟩ := hollow
  simp [Pipe.refill, spent, queued]

theorem Hollow.reach (hollow : pipe.Hollow) : pipe.reach = [] := by
  obtain ⟨spent, rest, queued⟩ := hollow
  have nothing : pipe.pending.toList = [] := by simpa using spent
  simp [Pipe.reach, queued, nothing]

theorem hollow_of_reach (none : pipe.reach = []) (some : pipe.held ≠ []) : pipe.Hollow := by
  obtain ⟨spent, blocked⟩ := List.append_eq_nil_iff.mp none
  have empty : pipe.pending.size = 0 := by simpa using spent
  refine ⟨empty, ?_⟩
  cases queued : pipe.channel.blocks with
  | nil => exact absurd (by simp [held, spent, queued]) some
  | cons block rest =>
      refine ⟨rest, ?_⟩
      by_cases room : 0 < block.size
      · have solid : block ≠ #[] := Array.size_pos_iff.mp room
        have gone : block = #[] := by
          simpa using List.flatMap_eq_nil_iff.mp blocked block (by simp [queued, room])
        exact absurd gone solid
      · rw [Array.eq_empty_of_size_eq_zero (by omega : block.size = 0)]

theorem reach_le_held (pipe : Pipe C) : pipe.reach <+: pipe.held := by
  obtain ⟨behind, split⟩ :=
    List.takeWhile_prefix (l := pipe.channel.blocks) fun block => decide (0 < block.size)
  refine (List.prefix_append_right_inj _).mpr ⟨behind.flatMap Array.toList, ?_⟩
  rw [← List.flatMap_append, split]

theorem reach_eq_held (solid : #[] ∉ pipe.channel.blocks) : pipe.reach = pipe.held := by
  have all : ∀ block ∈ pipe.channel.blocks, decide (0 < block.size) = true := by
    refine fun block member => decide_eq_true (Nat.pos_of_ne_zero fun empty => solid ?_)
    rwa [Array.eq_empty_of_size_eq_zero empty] at member
  rw [reach, List.takeWhile_eq_self_iff.mpr all, held]

theorem deliver_front (pipe : Pipe C) (out : Array C) :
    ∃ block : Array C, block.size = min out.size pipe.pending.size ∧
      pipe.deliver out = ⟨.ready (.ok block.size),
        .complex (block ++ out.extract block.size out.size), (pipe.deliver out).reader⟩ ∧
      pipe.reach = block.toList ++ (pipe.deliver out).reader.reach ∧
      pipe.held = block.toList ++ (pipe.deliver out).reader.held := by
  have cut := (Ledger.taken_deliver pipe out).symm
  rw [Ledger.taken_eq_front] at cut
  have size : (pipe.pending.extract 0 (min out.size pipe.pending.size)).size =
      min out.size pipe.pending.size := by simp
  refine ⟨_, size, by rw [size]; rfl, ?_, cut⟩
  have same := cut
  simp only [held, reach, deliver, ← List.append_assoc] at same ⊢
  rw [List.append_cancel_right same]

theorem count_of_read (room : 0 < out.size) {count : Nat}
    (answer : (pipe.read (.complex out)).poll = .ready (.ok count)) :
    count = 0 ↔ pipe.Hollow := by
  have ways := pipe.received out
  generalize pipe.read (.complex out) = drawn at ways answer
  cases ways with
  | terminated cause latched terminal => cases answer
  | nothing going empty => exact absurd empty (Nat.ne_of_gt room)
  | exhausted going _ drained finished => cases answer
  | waits running _ drained writable => cases answer
  | delivered going _ stocked =>
      obtain rfl : min out.size pipe.refill.pending.size = count := by
        simpa [deliver] using answer
      refine ⟨fun none => Classical.not_not.mp fun solid => ?_, fun hollow => by simp [hollow.refill]⟩
      have some := pending_refill solid stocked
      omega

theorem read_hollow (going : pipe.channel.latched.filter Error.terminal = none)
    (room : 0 < out.size) (hollow : pipe.Hollow) :
    (pipe.read (.complex out)).poll = .ready (.ok 0) ∧
      (pipe.read (.complex out)).view = .complex out ∧
      (pipe.read (.complex out)).reader.held = pipe.held := by
  obtain ⟨spent, others, queued⟩ := id hollow
  have answer : pipe.read (.complex out) = pipe.refill.deliver out := by
    simp [read, going, Nat.ne_of_gt room, spent, nextBlock, Channel.take, queued, refill]
  have held := Ledger.taken_deliver pipe.refill out
  rw [held_refill, Ledger.taken_eq_front, hollow.refill] at held
  refine ⟨?_, ?_, ?_⟩
  · simp [answer, deliver, hollow.refill]
  · simp [answer, deliver, hollow.refill]
  · rw [answer]
    simpa using held

theorem read_reaching (going : pipe.channel.latched.filter Error.terminal = none)
    (room : 0 < out.size) (reaches : pipe.reach ≠ []) :
    ∃ (block : Array C) (next : Pipe C), 0 < block.size ∧ block.size ≤ out.size ∧
      pipe.read (.complex out) =
        ⟨.ready (.ok block.size), .complex (block ++ out.extract block.size out.size), next⟩ ∧
      pipe.reach = block.toList ++ next.reach ∧ pipe.held = block.toList ++ next.held ∧
      next.channel.latched = pipe.channel.latched := by
  have solid : ¬pipe.Hollow := fun hollow => reaches hollow.reach
  obtain ⟨moved, blocks, channel, _⟩ := Ledger.taken_read pipe (.complex out)
  have some : pipe.held ≠ [] := by
    obtain ⟨behind, split⟩ := pipe.reach_le_held
    rw [← split]
    exact List.append_ne_nil_of_left_ne_nil reaches behind
  have ways := pipe.received out
  generalize pipe.read (.complex out) = drawn at ways channel ⊢
  cases ways with
  | terminated cause latched terminal =>
      rw [latched, Option.filter_some, if_pos terminal] at going
      cases going
  | nothing _ empty => exact absurd empty (Nat.ne_of_gt room)
  | exhausted _ _ drained finished => exact absurd drained some
  | waits running _ drained writable => exact absurd drained some
  | delivered _ _ stocked =>
      obtain ⟨block, size, answer, near, all⟩ := deliver_front pipe.refill out
      have pending := pending_refill solid stocked
      rw [reach_refill solid] at near
      rw [held_refill] at all
      exact ⟨block, _, by omega, by omega, answer, near, all, by rw [channel]⟩

inductive Filled (pipe : Pipe C) (front rest : Array C) : Drawn (Pipe C) C → Prop where
  | whole (got : Array C) (next : Pipe C) (near : rest.size ≤ pipe.reach.length)
      (samples : got.toList = pipe.reach.take rest.size)
      (left : pipe.held = got.toList ++ next.held) :
      Filled pipe front rest
        ⟨.ready (.ok (front.size + rest.size)), .complex (front ++ got), next⟩
  /-- An empty block is taken for the end. -/
  | fooled (got : Array C) (next : Pipe C) (far : pipe.reach.length < rest.size)
      (samples : got.toList = pipe.reach) (left : pipe.held = got.toList ++ next.held) :
      Filled pipe front rest ⟨.ready (.error .endOfStream),
        .complex (front ++ (got ++ rest.extract got.size rest.size)), next⟩

theorem Filled.behind {next : Pipe C} {block : Array C} {drawn : Drawn (Pipe C) C}
    (near : pipe.reach = block.toList ++ next.reach) (all : pipe.held = block.toList ++ next.held)
    (fits : block.size ≤ rest.size)
    (filled : Filled next (front ++ block) (rest.extract block.size rest.size) drawn) :
    Filled pipe front rest drawn := by
  have length : pipe.reach.length = block.size + next.reach.length := by simp [near]
  have size : (rest.extract block.size rest.size).size = rest.size - block.size := by simp
  cases filled with
  | whole got last covered samples left =>
      rw [size] at covered samples
      have total : (front ++ block).size + (rest.extract block.size rest.size).size =
          front.size + rest.size := by
        rw [Array.size_append, size]
        omega
      rw [total, Array.append_assoc]
      refine .whole (block ++ got) last (by omega) ?_ (by simp [all, left])
      rw [near, List.take_append, List.take_of_length_le (by simpa using fits), Array.toList_append,
        samples]
      rfl
  | fooled got last far samples left =>
      rw [size] at far
      have behind : (rest.extract block.size rest.size).extract got.size
            (rest.extract block.size rest.size).size =
          rest.extract (block ++ got).size rest.size := by
        rw [size, Array.extract_extract, Array.size_append]
        congr 1
        omega
      have regroup (tail : Array C) : front ++ block ++ (got ++ tail) =
          front ++ ((block ++ got) ++ tail) := by simp only [Array.append_assoc]
      rw [behind, regroup]
      exact .fooled (block ++ got) last (by omega) (by simp [near, samples]) (by simp [all, left])

theorem fillFrom_filled (going : pipe.channel.latched.filter Error.terminal = none)
    (enough : rest.size ≤ pipe.held.length) :
    Filled pipe front rest
      (pipe.fillFrom (front.size + rest.size) (.complex (front ++ rest)) front.size) := by
  induction needed : rest.size using Nat.strongRecOn generalizing pipe front rest with
  | _ need ih =>
  subst needed
  rw [fillFrom]
  by_cases room : 0 < rest.size
  · have dropped : (Buffer.complex (front ++ rest)).drop front.size = .complex rest := by
      simp [Buffer.drop, Buffer.extract, Buffer.size]
    have taken : (Buffer.complex (front ++ rest)).take front.size = .complex front := by
      simp [Buffer.take, Buffer.extract]
    rw [if_pos (by omega), dropped, taken]
    -- An answer of no samples ends the filling, any other leaves less to fill.
    by_cases reaches : pipe.reach = []
    · have some : pipe.held ≠ [] := List.ne_nil_of_length_pos (by omega)
      obtain ⟨poll, view, held⟩ := read_hollow going room (hollow_of_reach reaches some)
      have fooled : Filled pipe front rest ⟨.ready (.error .endOfStream),
          .complex (front ++ (#[] ++ rest.extract 0 rest.size)), (pipe.read (.complex rest)).reader⟩ :=
        .fooled #[] _ (by simpa [reaches] using room) (by simp [reaches]) (by simp [held])
      simpa [poll, view, Buffer.append] using fooled
    · obtain ⟨block, next, positive, fits, answer, near, all, latched⟩ :=
        read_reaching going room reaches
      have left : (rest.extract block.size rest.size).size = rest.size - block.size := by simp
      have further : Filled next (front ++ block) (rest.extract block.size rest.size) _ :=
        ih (rest.size - block.size) (by omega) (by rw [latched, going])
          (by simp [all] at enough ⊢; omega) left
      have total : (front ++ block).size + (rest.size - block.size) = front.size + rest.size := by
        rw [Array.size_append]
        omega
      obtain ⟨more, size⟩ := Nat.exists_eq_add_one.mpr positive
      rw [total, Array.append_assoc, Array.size_append, size] at further
      refine Filled.behind near all fits ?_
      simpa only [answer, size, Buffer.append] using further
  · have none : rest = #[] := Array.eq_empty_of_size_eq_zero (by omega)
    subst none
    rw [if_neg (by simp)]
    exact .whole #[] pipe (Nat.zero_le _) rfl rfl

theorem fill_filled (going : pipe.channel.latched.filter Error.terminal = none)
    (enough : out.size ≤ pipe.held.length) :
    Filled pipe #[] out (pipe.fill (.complex out)) := by
  have filled : Filled pipe #[] out
      (pipe.fillFrom ((#[] : Array C).size + out.size) (.complex (#[] ++ out)) (#[] : Array C).size) :=
    fillFrom_filled going enough
  simpa only [fill, Buffer.size, Array.size_empty, Nat.zero_add, Array.empty_append] using filled

theorem blocks_read (pipe : Pipe C) (view : Buffer C) :
    (pipe.read view).reader.channel.blocks <:+ pipe.channel.blocks := by
  cases view with
  | complex out =>
      have ways := pipe.received out
      generalize pipe.read (.complex out) = drawn at ways ⊢
      cases ways with
      | delivered going room stocked =>
          simp only [deliver, refill]
          split
          · split
            · rename_i block rest queued
              rw [queued]
              exact List.suffix_cons block rest
            · exact List.suffix_rfl
          · exact List.suffix_rfl
      | terminated cause latched terminal => exact List.suffix_rfl
      | nothing going empty => exact List.suffix_rfl
      | exhausted going room drained finished => exact List.suffix_rfl
      | waits running room drained writable => exact List.suffix_rfl
  | unsigned8 pairs => exact List.suffix_rfl
  | signed8 pairs => exact List.suffix_rfl
  | signed16 pairs => exact List.suffix_rfl

end Pipe

namespace Ledger

variable {capacity : Nat} {ledger : Ledger C}

theorem solid_act (solid : #[] ∉ ledger.pipe.channel.blocks) {call : Call C}
    (some : ∀ block, call = .write block → 0 < block.size) :
    #[] ∉ (ledger.act call).pipe.channel.blocks := by
  have ended (cause : Error) : #[] ∉ (ledger.pipe.closeWith cause).channel.blocks := by
    simpa [Pipe.closeWith] using solid
  cases call with
  | write block =>
      simp only [act, write]
      split
      · exact solid
      · have ways := ledger.pipe.written block
        generalize ledger.pipe.write block = answer at ways ⊢
        cases ways with
        | ended cause latched => exact solid
        | overrun running heard full => exact ended .overrun
        | deserted running alone => exact ended .pipeClosed
        | queued running heard room =>
            have next : block ≠ #[] := Array.size_pos_iff.mp (some block rfl)
            simpa [Pipe.queue, solid] using next.symm
  | read view =>
      simp only [act, read]
      split
      · exact solid
      · exact fun member => solid ((ledger.pipe.blocks_read view).subset member)
  | close => exact ended .pipeClosed
  | closeWith cause => exact ended cause
  | dropWriter => exact solid
  | dropReader => exact List.not_mem_nil

theorem solid_run (solid : #[] ∉ ledger.pipe.channel.blocks) {calls : List (Call C)}
    (some : ∀ block, .write block ∈ calls → 0 < block.size) :
    #[] ∉ (calls.foldl act ledger).pipe.channel.blocks := by
  induction calls generalizing ledger with
  | nil => exact solid
  | cons call calls ih =>
      refine ih (solid_act solid fun block same => some block ?_) fun block member =>
        some block (List.mem_cons_of_mem call member)
      exact same ▸ List.mem_cons_self

/-- What a reader gets that fills a buffer. -/
structure Supplies (ledger : Ledger C) : Prop where
  filled : ∀ out : Array C, out.size ≤ ledger.pipe.reach.length →
    ∃ got next, ledger.pipe.fill (.complex out) = ⟨.ready (.ok out.size), .complex got, next⟩ ∧
      got.size = out.size ∧ ledger.accepted = ledger.delivered ++ got.toList ++ next.held
  fooled : ∀ out : Array C, ledger.pipe.reach.length < out.size →
    ledger.delivered.length + out.size ≤ ledger.accepted.length →
      ∃ got next, ledger.pipe.fill (.complex out) = ⟨.ready (.error .endOfStream),
          .complex (got ++ out.extract got.size out.size), next⟩ ∧
        got.toList = ledger.pipe.reach ∧
        ledger.accepted = ledger.delivered ++ got.toList ++ next.held

theorem Balanced.supplies (balanced : Balanced capacity ledger)
    (going : ∀ cause, ledger.pipe.ending = some cause → cause.terminal = false)
    (heard : ledger.pipe.channel.readerGone = false) : Supplies ledger := by
  have kept := balanced.kept heard
  have running : ledger.pipe.channel.latched.filter Error.terminal = none := by
    refine Option.filter_eq_none_iff.mpr fun cause latched => ?_
    simp [going cause latched]
  refine ⟨?_, ?_⟩
  · intro out near
    have enough : out.size ≤ ledger.pipe.held.length :=
      near.trans ledger.pipe.reach_le_held.length_le
    have filled := Pipe.fill_filled running enough
    generalize ledger.pipe.fill (.complex out) = drawn at filled ⊢
    cases filled with
    | fooled got next far samples left => omega
    | whole got next _ samples left =>
        refine ⟨got, next, by simp, ?_, by rw [kept, left, List.append_assoc]⟩
        rw [← Array.length_toList, samples, List.length_take, Nat.min_eq_left near]
  · intro out far enough
    rw [kept, List.length_append] at enough
    have filled := Pipe.fill_filled running (by omega : out.size ≤ ledger.pipe.held.length)
    generalize ledger.pipe.fill (.complex out) = drawn at filled ⊢
    cases filled with
    | whole got next near samples left => omega
    | fooled got next _ samples left =>
        exact ⟨got, next, by simp, samples, by rw [kept, left, List.append_assoc]⟩

/-- A read that is answered with no samples has met an empty block. A buffer is filled if enough is
accepted for it in front of the first empty block, and that is all there is if no such block was
written. -/
theorem supplies_after {rate : Nat} {fresh : Pipe C}
    (opened : Pipe.ofCapacity capacity rate = .ok fresh) (calls : List (Call C))
    (heard : (after fresh calls).pipe.channel.readerGone = false) :
    (∀ (out : Array C) (count : Nat), 0 < out.size →
      ((after fresh calls).pipe.read (.complex out)).poll = .ready (.ok count) →
        (count = 0 ↔ (after fresh calls).pipe.Hollow)) ∧
    ((∀ cause, (after fresh calls).pipe.ending = some cause → cause.terminal = false) →
      Supplies (after fresh calls)) ∧
    ((∀ block, .write block ∈ calls → 0 < block.size) →
      ¬(after fresh calls).pipe.Hollow ∧
        (after fresh calls).accepted =
          (after fresh calls).delivered ++ (after fresh calls).pipe.reach) := by
  obtain ⟨_, rfl⟩ := Pipe.eq_of_ofCapacity opened
  have balanced := (Balanced.start (C := C) capacity rate).run calls
  refine ⟨fun out count room answer => Pipe.count_of_read room answer,
    fun going => balanced.supplies going heard, fun some => ?_⟩
  have empty : #[] ∉ (ofPipe (C := C) ⟨.ofCapacity capacity, rate, #[]⟩).pipe.channel.blocks :=
    List.not_mem_nil
  have solid : #[] ∉ (after ⟨.ofCapacity capacity, rate, #[]⟩ calls).pipe.channel.blocks :=
    solid_run empty some
  refine ⟨?_, ?_⟩
  · rintro ⟨_, rest, queued⟩
    exact solid (queued ▸ List.mem_cons_self)
  · rw [Pipe.reach_eq_held solid]
    exact balanced.kept heard

theorem supplies_after_blocks :
    ∃ (fresh : Pipe Nat) (calls : List (Call Nat)), Pipe.ofCapacity 2 1000 = .ok fresh ∧
      (after fresh calls).accepted = [7, 8, 9] ∧ (after fresh calls).delivered = [7] ∧
      ¬(after fresh calls).pipe.Hollow ∧
      ∃ got next, (after fresh calls).pipe.fill (.complex #[0, 0]) =
        ⟨.ready (.ok 2), .complex got, next⟩ ∧ [8, 9] = got.toList ++ next.held := by
  let fresh : Pipe Nat := ⟨.ofCapacity 2, 1000, #[]⟩
  let calls : List (Call Nat) := [.write #[7, 8], .write #[9], .read (.complex #[0])]
  have opened : Pipe.ofCapacity 2 1000 = .ok fresh := rfl
  obtain ⟨_, supplies, whole⟩ := supplies_after opened calls rfl
  obtain ⟨solid, all⟩ := whole (by simp [calls])
  have going : ∀ cause, (after fresh calls).pipe.ending = some cause → cause.terminal = false := by
    intro cause ended
    cases ended
  obtain ⟨got, next, answer, _, split⟩ := (supplies going).filled #[0, 0] (by decide)
  have rest : [7] ++ [8, 9] = [7] ++ got.toList ++ next.held := split
  refine ⟨fresh, calls, opened, rfl, rfl, solid, got, next, answer, ?_⟩
  rwa [List.append_assoc, List.append_cancel_left_eq] at rest

theorem empty_block_before_sample :
    ∃ fresh : Pipe Nat, Pipe.ofCapacity 2 1000 = .ok fresh ∧
      (after fresh [.write #[], .write #[7]]).accepted = [7] ∧
      (after fresh [.write #[], .write #[7]]).delivered = [] ∧
      (after fresh [.write #[], .write #[7]]).pipe.ending = none ∧
      ((after fresh [.write #[], .write #[7]]).pipe.read (.complex #[0])).poll = .ready (.ok 0) ∧
      ((after fresh [.write #[], .write #[7]]).pipe.fill (.complex #[0])).poll =
        .ready (.error .endOfStream) :=
  ⟨⟨.ofCapacity 2, 1000, #[]⟩, rfl, rfl, rfl, rfl, rfl, by
    rw [Pipe.fill, Pipe.fillFrom]
    rfl⟩

end Ledger

end Wideband
