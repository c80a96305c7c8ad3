import Mathlib.Data.List.Basic

/-! `QString` as the program uses it: a null string or UTF-16 code units, with concatenation and
the place markers of `QString::arg`. -/

namespace XChaty.Qt

inductive QString
  | null
  | text (units : List UInt16)
deriving DecidableEq, Repr, Inhabited

namespace QString

def units : QString → List UInt16
  | null => []
  | text us => us

@[simp] theorem units_null : null.units = [] := rfl

@[simp] theorem units_text (us : List UInt16) : (text us).units = us := rfl

/-- A string literal of the source, whose characters are all below `U+0080`. -/
def ofLiteral (s : String) : QString := text (s.toList.map fun c => UInt16.ofNat c.toNat)

/-- `a + b`: null only when both are. -/
def append : QString → QString → QString
  | null, null => null
  | a, b => text (a.units ++ b.units)

instance : Append QString := ⟨append⟩

@[simp] theorem units_append (a b : QString) : (a ++ b).units = a.units ++ b.units := by
  cases a <;> cases b <;> rfl

theorem eq_of_units {a b : QString} (h : a.units = b.units) (hb : b.units ≠ []) : a = b := by
  cases a with
  | null => exact absurd h.symm hb
  | text us =>
    cases b with
    | null => exact absurd rfl hb
    | text vs => exact congrArg text h

/-! ### Place markers -/

/-- A piece of a template: a code unit, or a marker `%N` with `N` from 1 to 99 and the code units
that spell it. -/
inductive Piece
  | unit (u : UInt16)
  | marker (number : Nat) (spelling : List UInt16)
deriving DecidableEq, Repr

def digitValue (u : UInt16) : Option Nat :=
  if 48 ≤ u.toNat ∧ u.toNat ≤ 57 then some (u.toNat - 48) else none

/-- A percent sign in front of pieces: with one or two digits after it, it begins a marker.
Digits are never part of a marker that begins later, so the pieces can be formed from the right. -/
def percent : List Piece → List Piece
  | .unit d :: .unit e :: ps =>
    match digitValue d, digitValue e with
    | some m, some n =>
      if 10 * m + n = 0 then .unit 37 :: .unit d :: .unit e :: ps
      else .marker (10 * m + n) [37, d, e] :: ps
    | some m, none =>
      if m = 0 then .unit 37 :: .unit d :: .unit e :: ps else .marker m [37, d] :: .unit e :: ps
    | none, _ => .unit 37 :: .unit d :: .unit e :: ps
  | .unit d :: ps =>
    match digitValue d with
    | some m => if m = 0 then .unit 37 :: .unit d :: ps else .marker m [37, d] :: ps
    | none => .unit 37 :: .unit d :: ps
  | ps => .unit 37 :: ps

def pieces : List UInt16 → List Piece
  | [] => []
  | u :: us => if u = 37 then percent (pieces us) else .unit u :: pieces us

def lowest : List Piece → Option Nat
  | [] => none
  | .unit _ :: ps => lowest ps
  | .marker n _ :: ps =>
    match lowest ps with
    | none => some n
    | some m => some (min n m)

/-- The code units of the pieces with every marker `n` replaced by `a`. -/
def fill (n : Nat) (a : List UInt16) : List Piece → List UInt16
  | [] => []
  | .unit u :: ps => u :: fill n a ps
  | .marker m spelling :: ps => (if m = n then a else spelling) ++ fill n a ps

/-- `s.arg(a)`: every occurrence of the lowest-numbered marker becomes `a`; a string without a
marker is returned as it is. -/
def arg (s a : QString) : QString :=
  match lowest (pieces s.units) with
  | none => s
  | some n => text (fill n a.units (pieces s.units))

example : ((ofLiteral "a %1 b %2 %1").arg (ofLiteral "x%2")).arg (ofLiteral "y") =
    ofLiteral "a xy b y xy" := by decide

/-! ### Numbers -/

def decimal (n : Nat) : List UInt16 := (Nat.toDigits 10 n).map fun c => UInt16.ofNat c.toNat

/-- `QString::number`, which is also how `arg` spells an `int`. -/
def number (n : Int) : QString :=
  if 0 ≤ n then text (decimal n.toNat) else text (45 :: decimal (-n).toNat)

end QString

end XChaty.Qt
