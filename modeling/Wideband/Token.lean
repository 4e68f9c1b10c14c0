import Wideband.Error

namespace Wideband

/-- A set of tokens, each named by its index. Copies of a token watch one flag. -/
structure Tokens where
  watched : List Nat
  raised : List Bool

namespace Tokens

def empty : Tokens := ⟨[], []⟩

def fresh (tokens : Tokens) : Tokens :=
  ⟨tokens.watched ++ [tokens.raised.length], tokens.raised ++ [false]⟩

def copy (tokens : Tokens) (token : Nat) : Option Tokens :=
  match tokens.watched[token]? with
  | none => none
  | some flag => some { tokens with watched := tokens.watched ++ [flag] }

def cancel (tokens : Tokens) (token : Nat) : Option Tokens :=
  match tokens.watched[token]? with
  | none => none
  | some flag => some { tokens with raised := tokens.raised.set flag true }

def states (tokens : Tokens) : List Bool :=
  tokens.watched.map fun flag => tokens.raised.getD flag false

def poll (cancelled : Bool) : Except Error Unit :=
  if cancelled then .error .cancelled else .ok ()

end Tokens

end Wideband
