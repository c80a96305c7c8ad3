import XChaty.ProofKit.BigEndian
import XChaty.ProofKit.Codec
import XChaty.Qt.QString

/-! `QDataStream` over a byte array, in its default big-endian order: the bytes that `stream << x`
appends (`putUInt8 x` and so on), and what `stream >> x` takes and stores (`getUInt8` and so on),
for `quint8`, `quint32`, `int`, and `QString`.  A failed read sets the status and stores zero or an
empty or null string, and the reads after it go on. -/

namespace XChaty.Qt

open ProofKit.BigEndian ProofKit.Codec

inductive Status
  | readPastEnd
  | readCorruptData
deriving DecidableEq, Repr

abbrev QByteArray := List UInt8

/-- A byte array opened for reading; no error stands for `Ok`. -/
abbrev QDataStream := Cursor UInt8 Status

abbrev Extract (α : Type) := Reader UInt8 Status α

/-! ### Integers -/

def putUInt8 (x : UInt8) : QByteArray := [x]

def putUInt32 (x : UInt32) : QByteArray := bigEndian 4 x.toNat

def putInt (x : Int32) : QByteArray := putUInt32 x.toUInt32

def getUInt8 : Extract UInt8 := field .readPastEnd 1 (·.headD 0) 0

def getUInt32 : Extract UInt32 :=
  field .readPastEnd 4 (fun bytes => UInt32.ofNat (ofBigEndian bytes)) 0

def getInt : Extract Int32 := do
  let x ← getUInt32
  pure x.toInt32

@[simp] theorem putUInt32_length (x : UInt32) : (putUInt32 x).length = 4 := bigEndian_length 4 _

@[simp] theorem putInt_length (x : Int32) : (putInt x).length = 4 := putUInt32_length _

theorem getUInt8_reads (x : UInt8) : Reads getUInt8 (putUInt8 x) x :=
  field_reads Status.readPastEnd (·.headD 0) 0 (List.length_singleton : (putUInt8 x).length = 1)

theorem getUInt32_reads (x : UInt32) : Reads getUInt32 (putUInt32 x) x := by
  have hback : UInt32.ofNat (ofBigEndian (putUInt32 x)) = x := by
    have hlt := x.toNat_lt
    rw [putUInt32, ofBigEndian_bigEndian_of_lt (by omega), UInt32.ofNat_toNat]
  have h := field_reads Status.readPastEnd (fun bytes => UInt32.ofNat (ofBigEndian bytes)) 0
    (putUInt32_length x)
  rw [hback] at h
  exact h

theorem getInt_reads (x : Int32) : Reads getInt (putInt x) x :=
  bind_pure_reads (f := UInt32.toInt32) (getUInt32_reads x.toUInt32)

theorem putUInt32_ofBigEndian {bytes : QByteArray} (h : bytes.length = 4) :
    putUInt32 (UInt32.ofNat (ofBigEndian bytes)) = bytes := by
  have hlt := ofBigEndian_lt bytes
  have hback := bigEndian_ofBigEndian bytes
  rw [h] at hlt hback
  rw [putUInt32, UInt32.toNat_ofNat_of_lt' hlt, hback]

theorem getUInt8_consumes : Consumes [] putUInt8 getUInt8 := by
  refine field_consumes _ _ fun bytes hlen => ?_
  obtain ⟨b, rfl⟩ := List.length_eq_one_iff.mp hlen
  rfl

theorem getUInt32_consumes : Consumes [] putUInt32 getUInt32 :=
  field_consumes _ _ fun _ hlen => (putUInt32_ofBigEndian hlen).symm

theorem getInt_consumes : Consumes [] putInt getInt :=
  bind_consumes getUInt32_consumes fun _ => pure_consumes rfl

/-! ### Strings -/

def putUnit (u : UInt16) : QByteArray := bigEndian 2 u.toNat

def unitsOf : QByteArray → List UInt16
  | high :: low :: bytes => UInt16.ofNat (ofBigEndian [high, low]) :: unitsOf bytes
  | _ => []

def nullMarker : UInt32 := 0xFFFFFFFF

/-- `stream << QString`: the count of bytes, then the code units. -/
def putQString : QString → QByteArray
  | .null => putUInt32 nullMarker
  | .text us => putUInt32 (UInt32.ofNat (2 * us.length)) ++ us.flatMap putUnit

/-- `stream >> QString`.  An odd count of bytes is corrupt data, and nothing after it is taken. -/
def getQString : Extract QString := do
  let bytes ← getUInt32
  if bytes = nullMarker then pure .null
  else if bytes = 0 then pure (.text [])
  else if bytes.toNat % 2 = 1 then raise .readCorruptData .null
  else field .readPastEnd bytes.toNat (fun taken => .text (unitsOf taken)) .null

theorem putUnit_length (u : UInt16) : (putUnit u).length = 2 := bigEndian_length 2 _

theorem flatMap_putUnit_length (us : List UInt16) : (us.flatMap putUnit).length = 2 * us.length := by
  induction us with
  | nil => rfl
  | cons u us ih => rw [List.flatMap_cons, List.length_append, putUnit_length, ih,
      List.length_cons]; omega

theorem putQString_text_length (us : List UInt16) :
    (putQString (.text us)).length = 4 + 2 * us.length := by
  rw [putQString, List.length_append, putUInt32_length, flatMap_putUnit_length]

theorem putQString_length (s : QString) : (putQString s).length = 4 + 2 * s.units.length := by
  cases s with
  | null => exact putUInt32_length _
  | text us => exact putQString_text_length us

theorem unitsOf_putUnit_append (u : UInt16) (bytes : QByteArray) :
    unitsOf (putUnit u ++ bytes) = u :: unitsOf bytes := by
  have hspell : UInt16.ofNat (ofBigEndian (putUnit u)) = u := by
    have hlt := u.toNat_lt
    rw [putUnit, ofBigEndian_bigEndian_of_lt (by omega), UInt16.ofNat_toNat]
  exact congrArg (· :: unitsOf bytes) hspell

theorem unitsOf_flatMap (us : List UInt16) : unitsOf (us.flatMap putUnit) = us := by
  induction us with
  | nil => rfl
  | cons u us ih => rw [List.flatMap_cons, unitsOf_putUnit_append, ih]

theorem putUnit_ofBigEndian (high low : UInt8) :
    putUnit (UInt16.ofNat (ofBigEndian [high, low])) = [high, low] := by
  have hlt := ofBigEndian_lt [high, low]
  simp only [List.length_cons, List.length_nil] at hlt
  rw [putUnit, UInt16.toNat_ofNat_of_lt' (by simp only [UInt16.size]; omega)]
  exact bigEndian_ofBigEndian [high, low]

theorem flatMap_unitsOf (bytes : QByteArray) (h : bytes.length % 2 = 0) :
    (unitsOf bytes).flatMap putUnit = bytes := by
  induction bytes using unitsOf.induct with
  | case1 high low bytes ih =>
    rw [unitsOf, List.flatMap_cons, putUnit_ofBigEndian, ih (by simp at h; omega)]
    rfl
  | case2 bytes hshort =>
    match bytes with
    | [] => rfl
    | [b] => simp at h
    | b :: b' :: bytes => exact absurd rfl (hshort b b' bytes)

theorem unitsOf_length (bytes : QByteArray) (h : bytes.length % 2 = 0) :
    2 * (unitsOf bytes).length = bytes.length := by
  rw [← flatMap_putUnit_length, flatMap_unitsOf bytes h]

theorem byteCount_toNat {us : List UInt16} (h : (putQString (.text us)).length < 2 ^ 31) :
    (UInt32.ofNat (2 * us.length)).toNat = 2 * us.length := by
  rw [putQString_text_length] at h
  exact UInt32.toNat_ofNat_of_lt' (by simp [UInt32.size]; omega)

theorem getQString_reads {s : QString} (h : (putQString s).length < 2 ^ 31) :
    Reads getQString (putQString s) s := by
  cases s with
  | null =>
    rw [← List.append_nil (putQString .null)]
    exact bind_reads (getUInt32_reads nullMarker) (pure_reads QString.null)
  | text us =>
    have hcount := byteCount_toNat h
    rw [putQString_text_length] at h
    refine bind_reads (getUInt32_reads _) ?_
    have hne : UInt32.ofNat (2 * us.length) ≠ nullMarker := by
      intro heq
      rw [heq, show nullMarker.toNat = 2 ^ 32 - 1 from rfl] at hcount
      omega
    rw [if_neg hne]
    by_cases hzero : us = []
    · subst hzero
      exact pure_reads _
    · have hpos : 0 < us.length := List.length_pos_iff.mpr hzero
      have hne0 : UInt32.ofNat (2 * us.length) ≠ 0 := by
        intro heq
        rw [heq, show (0 : UInt32).toNat = 0 from rfl] at hcount
        omega
      rw [if_neg hne0, if_neg (by omega)]
      have htaken := field_reads Status.readPastEnd (fun taken => QString.text (unitsOf taken))
        .null (flatMap_putUnit_length us)
      rw [unitsOf_flatMap, ← hcount] at htaken
      exact htaken

theorem getQString_consumes : Consumes [] putQString getQString := by
  refine bind_consumes getUInt32_consumes fun bytes => ?_
  rw [List.nil_append]
  split
  · rename_i hnull
    exact pure_consumes (by rw [hnull]; rfl)
  · split
    · rename_i hzero
      exact pure_consumes (by rw [hzero]; rfl)
    · split
      · exact raise_consumes _ _ _ _
      · rename_i heven
        refine field_consumes _ _ fun taken hlen => ?_
        have htaken : taken.length % 2 = 0 := by omega
        rw [putQString, unitsOf_length taken htaken, flatMap_unitsOf taken htaken, hlen,
          UInt32.ofNat_toNat]

/-! ### What a failed read of a string stores -/

theorem getQString_of_short {c : QDataStream} (h : c.rest.length < 4) :
    (getQString.run c).1 = .text [] := by
  rw [getQString, run_bind, getUInt32, field_of_lt h]
  rfl

/-- A string whose reading starts without an error and meets one has no code units. -/
theorem getQString_units_of_fails {rest : QByteArray}
    (h : (getQString.run ⟨rest, none⟩).2.error ≠ none) :
    (getQString.run ⟨rest, none⟩).1.units = [] := by
  by_cases hcount : rest.length < 4
  · rw [getQString_of_short hcount]
    rfl
  · rw [getQString, run_bind] at h ⊢
    rw [getUInt32, field_of_le (by simpa using hcount)] at h ⊢
    split at h
    · exact absurd rfl h
    · split at h
      · exact absurd rfl h
      · split at h
        · rename_i hnull hzero hodd
          simp only [if_neg hnull, if_neg hzero, if_pos hodd]
          rfl
        · rename_i hnull hzero hodd
          simp only [if_neg hnull, if_neg hzero, if_neg hodd]
          by_cases hle : (UInt32.ofNat (ofBigEndian (rest.take 4))).toNat ≤ (rest.drop 4).length
          · rw [field_of_le hle] at h
            exact absurd rfl h
          · rw [field_of_lt (by simpa using hle)]
            rfl

/-- Except for the empty string, the bytes of all that `stream >> QString` stores were there. -/
theorem length_of_getQString {rest : QByteArray}
    (h : (getQString.run ⟨rest, none⟩).1 ≠ .text []) :
    4 + 2 * (getQString.run ⟨rest, none⟩).1.units.length ≤ rest.length := by
  have hcount : 4 ≤ rest.length := by
    by_contra hshort
    exact h (getQString_of_short (Nat.lt_of_not_le hshort))
  by_cases hok : (getQString.run ⟨rest, none⟩).2.error = none
  · obtain ⟨-, htaken⟩ := getQString_consumes ⟨rest, none⟩ hok
    have hlen := congrArg List.length htaken
    simp only [List.nil_append, List.length_append, putQString_length] at hlen
    omega
  · rw [getQString_units_of_fails hok, List.length_nil]
    exact hcount

end XChaty.Qt
