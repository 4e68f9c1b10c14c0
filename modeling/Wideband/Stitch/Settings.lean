import Wideband.Error

namespace Wideband.Stitch

structure Settings where
  /-- Samples that one block takes from each stream. -/
  length : Nat
  queue : Nat

namespace Settings

def standard : Settings := ⟨64 * 1024, 16⟩

def check (settings : Settings) : Except Error Unit :=
  if settings.length < 2 then .error (.misfit (.shortBlock settings.length))
  else if settings.queue = 0 then .error (.misfit .noQueue)
  else .ok ()

end Settings

end Wideband.Stitch
