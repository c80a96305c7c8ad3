import Mathlib.Data.List.Basic
import Mathlib.Data.List.Infix

/-! Cutting a stream at a delimiter.  `cut` takes one symbol at a time and ends a packet as soon as
it ends with the delimiter.  Words that are each followed by the delimiter are cut where they were
put together exactly when the delimiter occurs in none of them before its end. -/

namespace XChaty.ProofKit.Delimiter

universe u

variable {β : Type u} {delimiter : List β}

/-- The delimiter occurs in `word ++ delimiter` only at its end. -/
def EndsOnce (delimiter word : List β) : Prop :=
  ∀ start, start <+: word ++ delimiter → delimiter <:+ start → start = word ++ delimiter

theorem endsOnce_singleton {d : β} {word : List β} : EndsOnce [d] word ↔ d ∉ word := by
  constructor
  · intro honce hmem
    obtain ⟨before, after, rfl⟩ := List.append_of_mem hmem
    have heq := honce (before ++ [d]) ⟨after ++ [d], by simp⟩ (List.suffix_append before [d])
    have hlen := congrArg List.length heq
    simp only [List.length_append, List.length_cons, List.length_nil] at hlen
    omega
  · rintro hnot start hstart ⟨before, rfl⟩
    rcases List.prefix_concat_iff.mp hstart with heq | hshort
    · exact heq
    · exact absurd (hshort.subset (List.mem_append_right before List.mem_cons_self)) hnot

variable [DecidableEq β]

/-- The packets of a stream, each with its delimiter, and the symbols after the last of them.
`pending` has come before the stream. -/
def cut (delimiter pending : List β) : List β → List (List β) × List β
  | [] => ([], pending)
  | b :: bs =>
    if delimiter <:+ pending ++ [b] then
      ((pending ++ [b]) :: (cut delimiter [] bs).1, (cut delimiter [] bs).2)
    else cut delimiter (pending ++ [b]) bs

/-- A packet is cut off where the delimiter first ends. -/
theorem cut_append {pending packet : List β} (rest : List β) (hne : packet ≠ [])
    (hend : delimiter <:+ pending ++ packet)
    (hfirst : ∀ start, start <+: packet → start ≠ [] → delimiter <:+ pending ++ start →
      start = packet) :
    cut delimiter pending (packet ++ rest) =
      ((pending ++ packet) :: (cut delimiter [] rest).1, (cut delimiter [] rest).2) := by
  induction packet generalizing pending with
  | nil => exact absurd rfl hne
  | cons b packet ih =>
    have hpending : pending ++ [b] ++ packet = pending ++ b :: packet := by simp
    rw [List.cons_append, cut]
    by_cases hnow : delimiter <:+ pending ++ [b]
    · have hpacket : [b] = b :: packet := hfirst [b] ⟨packet, rfl⟩ (List.cons_ne_nil b []) hnow
      obtain rfl : packet = [] := (List.cons.inj hpacket).2.symm
      rw [if_pos hnow, List.nil_append]
    · rw [if_neg hnow]
      have hrest : packet ≠ [] := fun hnil => hnow (by rw [hnil] at hend; exact hend)
      rw [ih hrest (by rw [hpending]; exact hend), hpending]
      intro start hstart hstartne hclosed
      have hlonger : pending ++ [b] ++ start = pending ++ b :: start := by simp
      rw [hlonger] at hclosed
      have hcons := hfirst (b :: start) (List.cons_prefix_cons.mpr ⟨rfl, hstart⟩)
        (List.cons_ne_nil b start) hclosed
      exact (List.cons.inj hcons).2

/-- The first packet ends where the delimiter first ends. -/
theorem first_of_cut {pending stream packet : List β} {packets : List (List β)} {rest : List β}
    (h : cut delimiter pending stream = (packet :: packets, rest)) :
    ∃ front back, stream = front ++ back ∧ packet = pending ++ front ∧
      cut delimiter [] back = (packets, rest) ∧
      ∀ start, start <+: front → start ≠ [] → delimiter <:+ pending ++ start → start = front := by
  induction stream generalizing pending with
  | nil => cases h
  | cons b bs ih =>
    rw [cut] at h
    by_cases hnow : delimiter <:+ pending ++ [b]
    · rw [if_pos hnow] at h
      obtain ⟨hpackets, hrest⟩ := Prod.mk.inj h
      obtain ⟨hpacket, hpackets⟩ := List.cons.inj hpackets
      refine ⟨[b], bs, rfl, hpacket.symm, by rw [← hpackets, ← hrest], ?_⟩
      intro start hstart hne _
      rcases List.prefix_concat_iff.mp (show start <+: [] ++ [b] from hstart) with heq | hnil
      · exact heq
      · exact absurd (List.prefix_nil.mp hnil) hne
    · rw [if_neg hnow] at h
      obtain ⟨front, back, rfl, hpacket, hback, hfirst⟩ := ih h
      refine ⟨b :: front, back, rfl, by rw [hpacket, List.append_assoc]; rfl, hback, ?_⟩
      intro start hstart hne hclosed
      cases start with
      | nil => exact absurd rfl hne
      | cons c start =>
        obtain ⟨rfl, hshorter⟩ := List.cons_prefix_cons.mp hstart
        have hsplit : pending ++ c :: start = pending ++ [c] ++ start := by simp
        rw [hsplit] at hclosed
        by_cases hnil : start = []
        · subst hnil
          rw [List.append_nil] at hclosed
          exact absurd hclosed hnow
        · rw [hfirst start hshorter hnil hclosed]

/-- Words that are each followed by the delimiter are cut where they were put together exactly when
the delimiter occurs in none of them before its end. -/
theorem cut_flatMap_iff (hne : delimiter ≠ []) (words : List (List β)) :
    cut delimiter [] (words.flatMap (· ++ delimiter)) = (words.map (· ++ delimiter), []) ↔
      ∀ word ∈ words, EndsOnce delimiter word := by
  induction words with
  | nil => simp [cut]
  | cons word words ih =>
    rw [List.flatMap_cons, List.map_cons, List.forall_mem_cons, ← ih]
    constructor
    · intro h
      obtain ⟨front, back, hstream, hpacket, hback, hfirst⟩ := first_of_cut h
      rw [List.nil_append] at hpacket
      subst hpacket
      obtain rfl := List.append_cancel_left hstream
      refine ⟨fun start hstart hclosed => hfirst start hstart ?_ hclosed, hback⟩
      rintro rfl
      exact hne (List.suffix_nil.mp hclosed)
    · rintro ⟨honce, hrest⟩
      have hpacket : word ++ delimiter ≠ [] := List.append_ne_nil_of_right_ne_nil word hne
      rw [cut_append _ hpacket (List.suffix_append word delimiter)
        fun start hstart _ hclosed => honce start hstart hclosed, hrest]
      rfl

end XChaty.ProofKit.Delimiter
