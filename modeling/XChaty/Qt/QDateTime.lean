import XChaty.Qt.QString

/-! The clock of `QDateTime::currentDateTime`, as far as the chat window writes it. -/

namespace XChaty.Qt

structure QDateTime where
  year : Nat
  month : Nat
  day : Nat
  hour : Nat
  minute : Nat
  second : Nat
  msec : Nat
deriving DecidableEq, Repr

def padded (width n : Nat) : List UInt16 :=
  List.replicate (width - (QString.decimal n).length) 48 ++ QString.decimal n

/-- The form `"[yyyy-MM-dd hh:mm:ss.zzz] "`. -/
def QDateTime.toString (now : QDateTime) : QString :=
  .text ([91] ++ padded 4 now.year ++ [45] ++ padded 2 now.month ++ [45] ++ padded 2 now.day ++
    [32] ++ padded 2 now.hour ++ [58] ++ padded 2 now.minute ++ [58] ++ padded 2 now.second ++
    [46] ++ padded 3 now.msec ++ [93, 32])

example : (QDateTime.mk 2024 3 9 17 5 0 42).toString =
    QString.ofLiteral "[2024-03-09 17:05:00.042] " := by decide

theorem QDateTime.toString_ne_nil (now : QDateTime) : now.toString.units ≠ [] := by
  simp [toString]

end XChaty.Qt
