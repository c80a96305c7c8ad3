import Mathlib.Logic.Function.Iterate
import XChaty.Protoc.Wire

/-! What `DeSerrialize` makes of bytes and of a longer sequence that begins with them.  A string at
the front of some bytes is a count and as many bytes, so whether two reads can tell where the
shorter one ends depends only on the counts and on the two lengths. -/

namespace XChaty.Protoc

open Qt ProofKit.Codec ProofKit.BigEndian

/-! ### One field -/

def countOf (bytes : QByteArray) : Nat := ofBigEndian (bytes.take 4)

/-- The bytes that a string at the front asks for.  After an odd count, and so after the count of a
null string, nothing more is taken. -/
def extent (bytes : QByteArray) : Nat :=
  if countOf bytes % 2 = 1 then 4 else 4 + countOf bytes

def afterString (bytes : QByteArray) : QByteArray := bytes.drop (extent bytes)

/-- What `stream >> QString` stores. -/
def stringOf (bytes : QByteArray) : QString :=
  if bytes.length < 4 then .text []
  else if countOf bytes % 2 = 1 then .null
  else if bytes.length < extent bytes then .null
  else .text (unitsOf ((bytes.drop 4).take (countOf bytes)))

/-- What `stream >> int` stores. -/
def intOf (bytes : QByteArray) : Int32 :=
  if bytes.length < 4 then 0 else (UInt32.ofNat (countOf bytes)).toInt32

theorem countOf_lt (bytes : QByteArray) : countOf bytes < 2 ^ 32 := by
  have hlt := ofBigEndian_lt (bytes.take 4)
  have hle : 256 ^ (bytes.take 4).length ≤ 256 ^ 4 :=
    Nat.pow_le_pow_right (by decide) (List.length_take_le 4 bytes)
  exact Nat.lt_of_lt_of_le hlt hle

theorem four_le_extent (bytes : QByteArray) : 4 ≤ extent bytes := by
  unfold extent
  split
  · exact Nat.le_refl 4
  · exact Nat.le_add_right 4 _

/-- The part of `stream >> QString` after its count. -/
def stringBody (bytes : UInt32) : Extract QString :=
  if bytes = nullMarker then pure .null
  else if bytes = 0 then pure (.text [])
  else if bytes.toNat % 2 = 1 then raise .readCorruptData .null
  else field .readPastEnd bytes.toNat (fun taken => .text (unitsOf taken)) .null

theorem stringBody_odd {bytes : UInt32} (hodd : bytes.toNat % 2 = 1) (c : QDataStream) :
    ((stringBody bytes).run c).1 = .null ∧ ((stringBody bytes).run c).2.rest = c.rest := by
  unfold stringBody
  by_cases hnull : bytes = nullMarker
  · rw [if_pos hnull]
    exact ⟨rfl, rfl⟩
  · have hzero : bytes ≠ 0 := by
      rintro rfl
      exact absurd hodd (by decide)
    rw [if_neg hnull, if_neg hzero, if_pos hodd]
    exact ⟨rfl, rfl⟩

theorem stringBody_even {bytes : UInt32} (heven : bytes.toNat % 2 ≠ 1) (c : QDataStream) :
    ((stringBody bytes).run c).1 =
        (if c.rest.length < bytes.toNat then .null
          else .text (unitsOf (c.rest.take bytes.toNat))) ∧
      ((stringBody bytes).run c).2.rest = c.rest.drop bytes.toNat := by
  have hnull : bytes ≠ nullMarker := by
    rintro rfl
    exact heven (by decide)
  unfold stringBody
  by_cases hzero : bytes = 0
  · have hnothing : bytes.toNat = 0 := by
      rw [hzero]
      rfl
    rw [if_neg hnull, if_pos hzero, hnothing, if_neg (Nat.not_lt_zero _)]
    exact ⟨rfl, rfl⟩
  · rw [if_neg hnull, if_neg hzero, if_neg heven]
    by_cases hlong : c.rest.length < bytes.toNat
    · rw [field_of_lt hlong, if_pos hlong, List.drop_eq_nil_of_le (Nat.le_of_lt hlong)]
      exact ⟨rfl, rfl⟩
    · rw [field_of_le (Nat.le_of_not_lt hlong), if_neg hlong]
      exact ⟨rfl, rfl⟩

theorem getQString_run (c : QDataStream) :
    (getQString.run c).1 = stringOf c.rest ∧ (getQString.run c).2.rest = afterString c.rest := by
  have hextent := four_le_extent c.rest
  by_cases hshort : c.rest.length < 4
  · have hafter : afterString c.rest = [] := List.drop_eq_nil_of_le (by omega)
    rw [stringOf, if_pos hshort, hafter, getQString, run_bind, getUInt32, field_of_lt hshort]
    exact ⟨rfl, rfl⟩
  · have hcount : (UInt32.ofNat (countOf c.rest)).toNat = countOf c.rest :=
      UInt32.toNat_ofNat_of_lt' (countOf_lt c.rest)
    have hbody : getQString.run c = (stringBody (UInt32.ofNat (countOf c.rest))).run
        { c with rest := c.rest.drop 4 } := by
      rw [getQString, run_bind, getUInt32, field_of_le (Nat.le_of_not_lt hshort)]
      rfl
    rw [hbody, stringOf, if_neg hshort, afterString]
    by_cases hodd : countOf c.rest % 2 = 1
    · obtain ⟨hvalue, hrest⟩ := stringBody_odd (hcount.symm ▸ hodd)
        { c with rest := c.rest.drop 4 }
      rw [if_pos hodd, extent, if_pos hodd]
      exact ⟨hvalue, hrest⟩
    · obtain ⟨hvalue, hrest⟩ := stringBody_even (hcount.symm ▸ hodd)
        { c with rest := c.rest.drop 4 }
      rw [hcount] at hvalue hrest
      rw [hvalue, hrest, if_neg hodd, extent, if_neg hodd, List.drop_drop, List.length_drop]
      refine ⟨?_, rfl⟩
      by_cases hlong : c.rest.length < 4 + countOf c.rest
      · rw [if_pos hlong, if_pos (by omega)]
      · rw [if_neg hlong, if_neg (by omega)]

theorem getInt_run (c : QDataStream) : (getInt.run c).1 = intOf c.rest := by
  unfold intOf getInt
  rw [run_bind, getUInt32]
  by_cases hshort : c.rest.length < 4
  · rw [field_of_lt hshort, if_pos hshort]
    rfl
  · rw [field_of_le (by omega), if_neg hshort]
    rfl

/-- The operators `>>` as functions of the bytes that are left. -/
theorem decode_fields (ba : QByteArray) :
    (decode ba).1 =
      if IsUserType (ba.headD 0) then
        ⟨⟨stringOf ba.tail, ba.headD 0⟩, some (.loginMsg
          ⟨⟨stringOf (afterString^[1] ba.tail), stringOf (afterString^[2] ba.tail),
            stringOf (afterString^[3] ba.tail)⟩⟩)⟩
      else if IsChatType (ba.headD 0) then
        ⟨⟨stringOf ba.tail, ba.headD 0⟩, some (.clientMessage
          ⟨stringOf (afterString^[1] ba.tail), stringOf (afterString^[2] ba.tail),
            intOf (afterString^[3] ba.tail)⟩)⟩
      else ⟨⟨stringOf ba.tail, ba.headD 0⟩, none⟩ := by
  have htype : (getUInt8.run ⟨ba, none⟩).1 = ba.headD 0 ∧
      (getUInt8.run ⟨ba, none⟩).2.rest = ba.tail := by
    cases ba with
    | nil => exact ⟨rfl, rfl⟩
    | cons b ba => exact ⟨rfl, rfl⟩
  have hhead : (Head.get.run ⟨ba, none⟩).1 = ⟨stringOf ba.tail, ba.headD 0⟩ ∧
      (Head.get.run ⟨ba, none⟩).2.rest = afterString ba.tail := by
    obtain ⟨htime, hrest⟩ := getQString_run (getUInt8.run ⟨ba, none⟩).2
    rw [htype.2] at htime hrest
    exact ⟨by rw [Head.get, run_bind, run_bind, run_pure, htime, htype.1], hrest⟩
  obtain ⟨hread, hrest⟩ := hhead
  rw [decode, ChatyMessage.get, run_bind]
  generalize Head.get.run ⟨ba, none⟩ = read at hread hrest
  obtain ⟨head, c⟩ := read
  cases hread
  replace hrest : c.rest = afterString^[1] ba.tail := hrest
  obtain ⟨hfirst, hrest₁⟩ := getQString_run c
  rw [hrest, ← Function.iterate_succ_apply' afterString 1] at hrest₁
  rw [hrest] at hfirst
  obtain ⟨hsecond, hrest₂⟩ := getQString_run (getQString.run c).2
  rw [hrest₁, ← Function.iterate_succ_apply' afterString 2] at hrest₂
  rw [hrest₁] at hsecond
  by_cases huser : IsUserType (ba.headD 0)
  · obtain ⟨hthird, -⟩ := getQString_run (getQString.run (getQString.run c).2).2
    rw [hrest₂] at hthird
    rw [if_pos huser, if_pos huser]
    simp only [LoginMsg.get, User.get, run_bind, run_pure, hfirst, hsecond, hthird,
      LoginMsg.copy_eq]
  · rw [if_neg huser, if_neg huser]
    by_cases hchat : IsChatType (ba.headD 0)
    · have hroom := getInt_run (getQString.run (getQString.run c).2).2
      rw [hrest₂] at hroom
      rw [if_pos hchat, if_pos hchat]
      simp only [ClientMessage.get, run_bind, run_pure, hfirst, hsecond, hroom,
        ClientMessage.copy_eq]
    · rw [if_neg hchat, if_neg hchat]
      rfl

/-! ### Bytes and a longer sequence -/

section Alike

/-- A string is read alike off `front` and off `whole`, which begins with it: both are too short for
a count, or the count is zero, or `front` has the count and either all the bytes that are asked for
or as little of them as `whole`. -/
def StringAlike (front whole : QByteArray) : Prop :=
  whole.length < 4 ∨ whole.take 4 = [0, 0, 0, 0] ∨
    4 ≤ front.length ∧ (extent whole ≤ front.length ∨ whole.length < extent whole)

/-- The same for an integer. -/
def IntAlike (front whole : QByteArray) : Prop :=
  whole.length < 4 ∨ whole.take 4 = [0, 0, 0, 0] ∨ 4 ≤ front.length

variable {front whole : QByteArray}

theorem countOf_eq_zero_iff (h : 4 ≤ whole.length) :
    countOf whole = 0 ↔ whole.take 4 = [0, 0, 0, 0] := by
  have hback := bigEndian_ofBigEndian (whole.take 4)
  rw [List.length_take_of_le h] at hback
  constructor
  · intro hzero
    rw [← hback]
    exact congrArg (bigEndian 4) hzero
  · intro hzero
    rw [countOf, hzero]
    rfl

theorem countOf_of_prefix (h : front <+: whole) (hcount : 4 ≤ front.length) :
    countOf front = countOf whole := by
  obtain ⟨rest, rfl⟩ := h
  rw [countOf, countOf, List.take_append_of_le_length hcount]

theorem extent_of_prefix (h : front <+: whole) (hcount : 4 ≤ front.length) :
    extent front = extent whole := by
  rw [extent, extent, countOf_of_prefix h hcount]

theorem afterString_mono (h : front <+: whole) : afterString front <+: afterString whole := by
  by_cases hcount : 4 ≤ front.length
  · rw [afterString, afterString, extent_of_prefix h hcount]
    exact h.drop _
  · have hextent := four_le_extent front
    rw [afterString, List.drop_eq_nil_of_le (by omega)]
    exact List.nil_prefix

theorem afterString_iterate_mono (h : front <+: whole) (n : Nat) :
    afterString^[n] front <+: afterString^[n] whole := by
  induction n generalizing front whole with
  | zero => exact h
  | succ n ih => exact ih (afterString_mono h)

theorem stringOf_eq_empty_iff (h : 4 ≤ whole.length) :
    stringOf whole = .text [] ↔ countOf whole = 0 := by
  rw [stringOf, if_neg (Nat.not_lt.mpr h)]
  by_cases hodd : countOf whole % 2 = 1
  · rw [if_pos hodd]
    refine iff_of_false (fun hnull => nomatch hnull) fun hzero => ?_
    rw [hzero] at hodd
    cases hodd
  · have hextent : extent whole = 4 + countOf whole := if_neg hodd
    rw [if_neg hodd]
    by_cases hlong : whole.length < extent whole
    · rw [if_pos hlong]
      exact iff_of_false (fun hnull => nomatch hnull) (by omega)
    · have htaken : ((whole.drop 4).take (countOf whole)).length = countOf whole := by
        rw [List.length_take_of_le]
        rw [List.length_drop]
        omega
      have hunits := unitsOf_length ((whole.drop 4).take (countOf whole)) (by omega)
      rw [if_neg hlong, QString.text.injEq, ← List.length_eq_zero_iff]
      omega

theorem stringOf_eq_iff (h : front <+: whole) :
    stringOf front = stringOf whole ↔ StringAlike front whole := by
  have hlength := h.length_le
  unfold StringAlike
  by_cases hwhole : whole.length < 4
  · rw [stringOf, stringOf, if_pos hwhole, if_pos (by omega)]
    exact iff_of_true rfl (.inl hwhole)
  · have hcount := countOf_eq_zero_iff (Nat.le_of_not_lt hwhole)
    by_cases hfront : front.length < 4
    · have hempty : stringOf front = .text [] := if_pos hfront
      rw [hempty, eq_comm, stringOf_eq_empty_iff (Nat.le_of_not_lt hwhole), hcount]
      constructor
      · exact fun hzero => .inr (.inl hzero)
      · rintro (hshort | hzero | ⟨hlong, -⟩)
        · exact absurd hshort hwhole
        · exact hzero
        · exact absurd hfront (Nat.not_lt.mpr hlong)
    · have hsame := countOf_of_prefix h (Nat.le_of_not_lt hfront)
      have hextent := extent_of_prefix h (Nat.le_of_not_lt hfront)
      rw [stringOf, stringOf, if_neg hfront, if_neg hwhole, hsame, hextent, ← hcount]
      by_cases hodd : countOf whole % 2 = 1
      · have hfour : extent whole = 4 := if_pos hodd
        rw [if_pos hodd, if_pos hodd]
        exact iff_of_true rfl (.inr (.inr ⟨by omega, .inl (by omega)⟩))
      · have hmore : extent whole = 4 + countOf whole := if_neg hodd
        rw [if_neg hodd, if_neg hodd]
        by_cases hfull : extent whole ≤ front.length
        · obtain ⟨rest, rfl⟩ := h
          have htaken : ((front ++ rest).drop 4).take (countOf (front ++ rest)) =
              (front.drop 4).take (countOf (front ++ rest)) := by
            rw [List.drop_append_of_le_length (by omega), List.take_append_of_le_length]
            rw [List.length_drop]
            omega
          rw [if_neg (by omega), if_neg (by omega), htaken]
          exact iff_of_true rfl (.inr (.inr ⟨by omega, .inl hfull⟩))
        · rw [if_pos (by omega)]
          by_cases hlong : whole.length < extent whole
          · rw [if_pos hlong]
            exact iff_of_true rfl (.inr (.inr ⟨by omega, .inr hlong⟩))
          · rw [if_neg hlong]
            exact iff_of_false (fun hnull => nomatch hnull) (by omega)

theorem intOf_eq_iff (h : front <+: whole) : intOf front = intOf whole ↔ IntAlike front whole := by
  have hlength := h.length_le
  unfold IntAlike intOf
  by_cases hwhole : whole.length < 4
  · rw [if_pos hwhole, if_pos (by omega)]
    exact iff_of_true rfl (.inl hwhole)
  · rw [if_neg hwhole, ← countOf_eq_zero_iff (Nat.le_of_not_lt hwhole)]
    by_cases hfront : front.length < 4
    · have hzero : (0 : Int32) = (UInt32.ofNat (countOf whole)).toInt32 ↔ countOf whole = 0 := by
        have hback : (UInt32.ofNat (countOf whole)).toNat = countOf whole :=
          UInt32.toNat_ofNat_of_lt' (countOf_lt whole)
        constructor
        · intro heq
          have hword := congrArg Int32.toUInt32 heq
          rw [UInt32.toUInt32_toInt32] at hword
          rw [← hback, ← hword]
          rfl
        · intro heq
          rw [heq]
          rfl
      rw [if_pos hfront, hzero]
      omega
    · rw [if_neg hfront, countOf_of_prefix h (Nat.le_of_not_lt hfront)]
      exact iff_of_true rfl (.inr (.inr (Nat.le_of_not_lt hfront)))

/-- The strings of a message of this type, the time among them. -/
def stringCount (msgType : UInt8) : Nat :=
  if IsUserType msgType then 4 else if IsChatType msgType then 3 else 1

/-- No read of a message can tell where `front` ends. -/
structure MessageAlike (front whole : QByteArray) : Prop where
  msgType : front.headD 0 = whole.headD 0
  strings : ∀ i < stringCount (whole.headD 0),
    StringAlike (afterString^[i] front.tail) (afterString^[i] whole.tail)
  chatRoom : IsChatType (whole.headD 0) →
    IntAlike (afterString^[3] front.tail) (afterString^[3] whole.tail)

/-- The string number `i` is read alike. -/
def AlikeAt (front whole : QByteArray) (i : Nat) : Prop :=
  StringAlike (afterString^[i] front.tail) (afterString^[i] whole.tail)

theorem messageAlike_user (htype : front.headD 0 = whole.headD 0)
    (huser : IsUserType (whole.headD 0)) :
    MessageAlike front whole ↔ AlikeAt front whole 0 ∧ AlikeAt front whole 1 ∧
      AlikeAt front whole 2 ∧ AlikeAt front whole 3 := by
  have hcount : stringCount (whole.headD 0) = 4 := if_pos huser
  constructor
  · intro halike
    exact ⟨halike.strings 0 (by omega), halike.strings 1 (by omega), halike.strings 2 (by omega),
      halike.strings 3 (by omega)⟩
  · rintro ⟨h0, h1, h2, h3⟩
    refine ⟨htype, fun i hi => ?_, fun hchat => absurd huser hchat.not_user⟩
    rw [hcount] at hi
    match i, hi with
    | 0, _ => exact h0
    | 1, _ => exact h1
    | 2, _ => exact h2
    | 3, _ => exact h3

theorem messageAlike_chat (htype : front.headD 0 = whole.headD 0)
    (hchat : IsChatType (whole.headD 0)) :
    MessageAlike front whole ↔ AlikeAt front whole 0 ∧ AlikeAt front whole 1 ∧
      AlikeAt front whole 2 ∧
        IntAlike (afterString^[3] front.tail) (afterString^[3] whole.tail) := by
  have hcount : stringCount (whole.headD 0) = 3 := by
    rw [stringCount, if_neg hchat.not_user, if_pos hchat]
  constructor
  · intro halike
    exact ⟨halike.strings 0 (by omega), halike.strings 1 (by omega), halike.strings 2 (by omega),
      halike.chatRoom hchat⟩
  · rintro ⟨h0, h1, h2, hroom⟩
    refine ⟨htype, fun i hi => ?_, fun _ => hroom⟩
    rw [hcount] at hi
    match i, hi with
    | 0, _ => exact h0
    | 1, _ => exact h1
    | 2, _ => exact h2

theorem messageAlike_other (htype : front.headD 0 = whole.headD 0)
    (huser : ¬IsUserType (whole.headD 0)) (hchat : ¬IsChatType (whole.headD 0)) :
    MessageAlike front whole ↔ AlikeAt front whole 0 := by
  have hcount : stringCount (whole.headD 0) = 1 := by
    rw [stringCount, if_neg huser, if_neg hchat]
  constructor
  · exact fun halike => halike.strings 0 (by omega)
  · intro h0
    refine ⟨htype, fun i hi => ?_, fun h => absurd h hchat⟩
    obtain rfl : i = 0 := by omega
    exact h0

theorem decode_eq_iff (h : front <+: whole) :
    (decode front).1 = (decode whole).1 ↔ MessageAlike front whole := by
  have hfront := afterString_iterate_mono (h.drop 1)
  rw [List.drop_one, List.drop_one] at hfront
  have htime : stringOf front.tail = stringOf whole.tail ↔ AlikeAt front whole 0 :=
    stringOf_eq_iff (hfront 0)
  have hstring : ∀ i,
      stringOf (afterString^[i] front.tail) = stringOf (afterString^[i] whole.tail) ↔
        AlikeAt front whole i := fun i => stringOf_eq_iff (hfront i)
  have hroom := intOf_eq_iff (hfront 3)
  rw [decode_fields, decode_fields]
  by_cases htype : front.headD 0 = whole.headD 0
  · rw [htype]
    by_cases huser : IsUserType (whole.headD 0)
    · rw [if_pos huser, if_pos huser, messageAlike_user htype huser]
      simp only [ChatyMessage.mk.injEq, Head.mk.injEq, and_true, Option.some.injEq,
        BaseMsg.loginMsg.injEq, LoginMsg.mk.injEq, User.mk.injEq, htime, hstring]
    · rw [if_neg huser, if_neg huser]
      by_cases hchat : IsChatType (whole.headD 0)
      · rw [if_pos hchat, if_pos hchat, messageAlike_chat htype hchat]
        simp only [ChatyMessage.mk.injEq, Head.mk.injEq, and_true, Option.some.injEq,
          BaseMsg.clientMessage.injEq, ClientMessage.mk.injEq, htime, hstring, hroom]
      · rw [if_neg hchat, if_neg hchat, messageAlike_other htype huser hchat]
        simp only [ChatyMessage.mk.injEq, Head.mk.injEq, and_true, htime]
  · refine iff_of_false (fun hsame => htype ?_) fun halike => htype halike.msgType
    rw [← decode_fields, ← decode_fields] at hsame
    rw [← decode_msgType front, ← decode_msgType whole, hsame]

end Alike

end XChaty.Protoc
