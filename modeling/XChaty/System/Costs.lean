import XChaty.Protoc.Truncation
import XChaty.System.Conversations

/-! What a line costs.  The text of a chat line is found behind the type, two counts at least and its
own count, so a sender pays thirteen bytes for a line with a text and two more for each code unit,
whatever bytes it sends and however the network cuts them. -/

namespace XChaty.System

open Qt Protoc ProofKit Chat Hv Server Client

/-- The bytes that a line takes at least. -/
def cost (text : QString) : Nat := if text.units = [] then 0 else 13 + 2 * text.units.length

theorem length_stringOf (bytes : QByteArray) (h : (stringOf bytes).units ≠ []) :
    4 + 2 * (stringOf bytes).units.length ≤ bytes.length := by
  obtain ⟨hread, -⟩ := getQString_run ⟨bytes, none⟩
  rw [← hread] at h ⊢
  apply length_of_getQString
  intro hempty
  rw [hempty] at h
  exact h rfl

theorem length_afterString (bytes : QByteArray) (h : afterString bytes ≠ []) :
    4 + (afterString bytes).length ≤ bytes.length := by
  have hextent := four_le_extent bytes
  have hpos := List.length_pos_iff.mpr h
  rw [afterString, List.length_drop] at hpos ⊢
  omega

theorem cost_le (segment : QByteArray) :
    ((ChatServer.spoken [segment]).map cost).sum ≤ segment.length := by
  simp only [ChatServer.spoken, List.map_cons, List.map_nil, chatTexts, decode_fields]
  by_cases huser : IsUserType (segment.headD 0)
  · simp only [if_pos huser, asChatMsg, List.filterMap_cons, List.filterMap_nil, Option.map_none,
      List.map_nil, List.sum_nil]
    exact Nat.zero_le _
  · by_cases hchat : IsChatType (segment.headD 0)
    · simp only [if_neg huser, if_pos hchat, asChatMsg, List.filterMap_cons, List.filterMap_nil,
        Option.map_some, List.map_cons, List.map_nil, List.sum_singleton]
      rw [cost]
      split
      · exact Nat.zero_le _
      · rename_i htext
        have hlast := length_stringOf _ htext
        have hsecond := length_afterString (afterString segment.tail) fun hnil => by
          change afterString^[2] segment.tail = [] at hnil
          rw [hnil, List.length_nil] at hlast
          omega
        have hfirst := length_afterString segment.tail fun hnil => by
          change 4 + (afterString (afterString segment.tail)).length ≤ _ at hsecond
          rw [hnil, List.length_nil] at hsecond
          omega
        change 4 + 2 * (stringOf (afterString^[2] segment.tail)).units.length ≤
          (afterString (afterString segment.tail)).length at hlast
        rw [List.length_tail] at hfirst
        omega
    · simp only [if_neg huser, if_neg hchat, asChatMsg, List.filterMap_cons, List.filterMap_nil,
        Option.map_none, List.map_nil, List.sum_nil]
      exact Nat.zero_le _

namespace Programs

variable {hio_id : Link → Nat} {Db : Type} (host : Host Db)

theorem cost_spoken (segments : List QByteArray) :
    ((ChatServer.spoken segments).map cost).sum ≤ segments.flatten.length := by
  induction segments with
  | nil => exact Nat.le_refl 0
  | cons segment segments ih =>
    have hone := cost_le segment
    rw [← List.singleton_append, spoken_append, List.map_append, List.sum_append,
      List.flatten_append, List.length_append]
    simpa using Nat.add_le_add hone ih

/-- In every run, whoever writes on a connection and however the network cuts and joins what is
written, all lines that the server hears on it have been paid for in bytes that were written. -/
theorem lines_paid_for (hunique : Function.Injective hio_id) (server : ChatServer Db)
    (users : Nat → User) (forms : Nat → Form) (inputs : List Input) (link : Link) :
    let notes := (programs hio_id host).log (new server users forms) inputs
    ((ChatServer.spoken (readFrom (hio_id link) notes)).map cost).sum ≤
      (writtenTo link notes).flatten.length := by
  intro notes
  have hcost := cost_spoken (readFrom (hio_id link) notes)
  have hbytes := congrArg List.length
    (bytes_run host hunique (s := new server users forms) rfl inputs link)
  rw [List.length_append] at hbytes
  calc ((ChatServer.spoken (readFrom (hio_id link) notes)).map cost).sum
      ≤ (readFrom (hio_id link) notes).flatten.length := hcost
    _ ≤ (writtenTo link notes).flatten.length := hbytes ▸ Nat.le_add_right _ _

theorem lines_paid_for_meeting :
    let notes := (programs numbering syntaxErrorHost).log
      (new (ChatServer.listening [] (.text [49])) someUsers someForms) meeting
    ((ChatServer.spoken (readFrom (numbering (.window 0 0)) notes)).map cost).sum ≤
      (writtenTo (.window 0 0) notes).flatten.length :=
  lines_paid_for syntaxErrorHost numbering_injective (ChatServer.listening [] (.text [49])) someUsers
    someForms meeting (.window 0 0)

end Programs

end XChaty.System
