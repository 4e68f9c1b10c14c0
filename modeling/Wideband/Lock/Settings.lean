import Wideband.Error

namespace Wideband.Lock

structure Settings where
  /-- Samples of each stream in one trial, and in the read for the carrier phases. -/
  length : Nat
  /-- Trials of one round, which must all agree. -/
  trials : Nat
  maxAttempts : Option Nat

namespace Settings

def standard : Settings := ⟨64 * 1024, 10, some 64⟩

def check (settings : Settings) : Except Error Unit :=
  if settings.length < 2 then .error (.misfit (.shortMeasurement settings.length))
  else if settings.trials = 0 then .error (.misfit .noTrials)
  else if settings.maxAttempts = some 0 then .error (.misfit .noAttempts)
  else .ok ()

end Settings

end Wideband.Lock
