import ReplyFlow.Decimal.Reading

/-! What is allowed to a running program.

A function may call itself only so often before its calls return, and a whole number that is written
out may have only so many digits. Whoever asks for more is broken off.
-/

set_option autoImplicit false

namespace ReplyFlow

structure Limits where
  /-- How many calls of one function may be inside one another. -/
  calls : Nat
  /-- How many digits a whole number may have that is written out. -/
  digits : Nat
  deriving Repr, DecidableEq

/-- Why a program is broken off. -/
inductive Limits.Excess where
  | calls
  | digits (limit : Nat)
  deriving Repr, DecidableEq

def Limits.Excess.message : Limits.Excess → String
  | .calls => "maximum recursion depth exceeded while calling a Python object"
  | .digits limit =>
    s!"Exceeds the limit ({limit} digits) for integer string conversion; "
      ++ "use sys.set_int_max_str_digits() to increase the limit"

namespace Limits

/-- The stack holds a thousand calls. Some of them are those of the callers, and some are left for
what the last call does. -/
def usual : Limits :=
  ⟨970, Decimal.digitLimit⟩

/-- A whole number may be written out. -/
def allows (limits : Limits) (value : Int) : Bool :=
  Decimal.decimalLength value.natAbs ≤ limits.digits

/-- What keeps a whole number from being written out. -/
def writing? (limits : Limits) (value : Int) : Option Excess :=
  if limits.allows value then none else some (.digits limits.digits)

/-- What keeps a function from calling itself inside `level` calls. -/
def calling? (limits : Limits) (level : Nat) : Option Excess :=
  if level < limits.calls then none else some .calls

end Limits

end ReplyFlow
