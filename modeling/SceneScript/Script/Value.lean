import SceneScript.Text.Quoted

/-! # Argument values

What an argument holds: a number or a text as read, and, once the scene is linked, the
index of the command a jump leads to, or the raw number of a jump that leads nowhere. -/

namespace SceneScript

/-- The value of one argument. -/
inductive Value where
  | number (n : Int)
  | text (s : String)
  | target (index : Nat)
  | unresolved (n : Int)
  deriving DecidableEq, Repr, Inhabited

namespace Value

def number? : Value → Option Int
  | .number n => some n
  | _ => none

def target? : Value → Option Nat
  | .target t => some t
  | _ => none

/-- The shown form: numbers in decimal, texts quoted, jumps after an at sign. -/
def display : Value → String
  | .number n => toString n
  | .text s => Text.quote s
  | .target t => "@" ++ toString t
  | .unresolved n => "@?" ++ toString n

end Value

end SceneScript
