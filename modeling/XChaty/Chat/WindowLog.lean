import XChaty.Chat.ChatWindowUtilty
import XChaty.ProofKit.History

/-! The chat text of a window that also calls `AppendMsg` and `OverWriteMsg` itself, in any order
with the events of its queue.  What the widget holds is a fold over what has been shown, so after an
overwrite the text is that message and one line for each thing shown since. -/

namespace XChaty.Chat

open Qt ProofKit

def ChatWindowUtilty.clearMsg (chat : ChatWindowUtilty) : ChatWindowUtilty :=
  { chat with m_chatEdit := { text := [] } }

def ChatWindowUtilty.overWriteMsg (chat : ChatWindowUtilty) (str : QString) :
    Option ChatWindowUtilty := chat.clearMsg.showMsg str

/-- A window: its event queue and its chat widget, `none` once a call has had no defined result. -/
abbrev Window := EventLoop (Option ChatWindowUtilty) (Nat × QStringEvent)

inductive WindowInput
  | appendMsg (now : QDateTime) (str : QString)
  | overWriteMsg (str : QString)
  | post (post : Post)
  | deliver (now : QDateTime)
deriving DecidableEq, Repr

inductive WindowNote
  | appended (now : QDateTime) (str : QString)
  | overwritten (str : QString)
  | posted (event : Nat × QStringEvent)
  | delivered (now : QDateTime) (event : Nat × QStringEvent)
deriving DecidableEq, Repr

/-- The queue of the window and its `customEvent`. -/
def windowEvents : Machine Window (Turn (Nat × QStringEvent) QDateTime)
    (Option (QDateTime × Nat × QStringEvent)) := eventLoop received

def window : Machine Window WindowInput (List WindowNote) where
  step s
    | .appendMsg now str =>
      ({ s with receiver := s.receiver.bind fun chat => chat.appendMsg now str },
        [.appended now str])
    | .overWriteMsg str =>
      ({ s with receiver := s.receiver.bind fun chat => chat.overWriteMsg str },
        [.overwritten str])
    | .post post =>
      ((windowEvents.step s (.post (postMsg post))).1, [.posted (postMsg post)])
    | .deliver now =>
      let (s, delivery) := windowEvents.step s (.deliver now)
      (s, delivery.toList.map fun d => .delivered d.1 d.2)

/-! ### What is shown -/

/-- What the text becomes. -/
def shows (text : List UInt16) : WindowNote → List UInt16
  | .appended now str => text ++ line now str
  | .overwritten str => broken str.units
  | .posted _ => text
  | .delivered now event => text ++ line now event.2.m_msg

def WindowNote.event : WindowNote → List (Nat × QStringEvent)
  | posted event => [event]
  | appended _ _ | overwritten _ | delivered _ _ => []

def WindowNote.delivery : WindowNote → List (Nat × QStringEvent)
  | delivered _ event => [event]
  | appended _ _ | overwritten _ | posted _ => []

/-- The widget holds the text, and every event on the queue is one that `PostMsg` has made. -/
structure Live (s : Window) (text : List UInt16) : Prop where
  receiver : s.receiver = some { m_chatEdit := { text } }
  queue : ∀ event ∈ s.queue, event.2.type = qEventRecvMsg

/-- `OverWriteMsg` of an empty string would read its last character. -/
def Defined : WindowInput → Prop
  | .overWriteMsg str => str.units ≠ []
  | .appendMsg _ _ | .post _ | .deliver _ => True

theorem overWriteMsg_eq (chat : ChatWindowUtilty) {str : QString} (h : str.units ≠ []) :
    chat.overWriteMsg str = some { m_chatEdit := { text := broken str.units } } := by
  rw [ChatWindowUtilty.overWriteMsg, ChatWindowUtilty.showMsg, checkAndAddLineBreak_eq h]
  rfl

theorem Live.step {s : Window} {text : List UInt16} (h : Live s text) {input : WindowInput}
    (hdefined : Defined input) :
    Live (window.step s input).1 ((window.step s input).2.foldl shows text) ∧
      (window.step s input).2.flatMap WindowNote.delivery ++ (window.step s input).1.queue =
        s.queue ++ (window.step s input).2.flatMap WindowNote.event := by
  obtain ⟨queue, receiver⟩ := s
  obtain ⟨rfl, hqueue⟩ := h
  cases input with
  | appendMsg now str =>
    refine ⟨⟨?_, hqueue⟩, (List.append_nil _).symm⟩
    simp only [window, Option.bind_some, appendMsg_eq]
    rfl
  | overWriteMsg str =>
    refine ⟨⟨?_, hqueue⟩, (List.append_nil _).symm⟩
    simp only [window, Option.bind_some, overWriteMsg_eq _ hdefined]
    rfl
  | post post =>
    refine ⟨⟨rfl, fun event hevent => ?_⟩, rfl⟩
    rcases List.mem_append.mp hevent with hold | hnew
    · exact hqueue event hold
    · rw [List.mem_singleton.mp hnew]
      rfl
  | deliver now =>
    cases queue with
    | nil => exact ⟨⟨rfl, hqueue⟩, rfl⟩
    | cons event queue =>
      refine ⟨⟨?_, fun e he => hqueue e (List.mem_cons_of_mem event he)⟩, ?_⟩
      · change received (some { m_chatEdit := { text } }) now event =
          some { m_chatEdit := { text := text ++ line now event.2.m_msg } }
        rw [received, Option.bind_some, customEvent, if_pos (hqueue event List.mem_cons_self),
          appendMsg_eq]
      · exact (List.append_nil _).symm

/-- After any calls and deliveries the widget holds what has been shown, and the deliveries are the
posts, in order, up to those still on the queue. -/
theorem Live.run {s : Window} {text : List UInt16} (h : Live s text) {inputs : List WindowInput}
    (hdefined : ∀ input ∈ inputs, Defined input) :
    Live (window.run s inputs) ((window.log s inputs).foldl shows text) ∧
      (window.log s inputs).flatMap WindowNote.delivery ++ (window.run s inputs).queue =
        s.queue ++ (window.log s inputs).flatMap WindowNote.event := by
  induction inputs generalizing s text with
  | nil => exact ⟨h, (List.append_nil _).symm⟩
  | cons input inputs ih =>
    obtain ⟨hlive, hqueue⟩ := h.step (hdefined input List.mem_cons_self)
    obtain ⟨hend, hrest⟩ := ih hlive fun i hi => hdefined i (List.mem_cons_of_mem input hi)
    rw [Machine.log_cons, Machine.run_cons, List.foldl_append]
    refine ⟨hend, ?_⟩
    rw [List.flatMap_append, List.append_assoc, hrest, ← List.append_assoc, hqueue,
      List.append_assoc, ← List.flatMap_append]

/-- The line that a call or a delivery adds. -/
def WindowNote.entry : WindowNote → List UInt16
  | appended now str => line now str
  | delivered now event => line now event.2.m_msg
  | overwritten _ | posted _ => []

theorem foldl_shows_entries {notes : List WindowNote} (h : ∀ str, .overwritten str ∉ notes)
    (text : List UInt16) : notes.foldl shows text = text ++ notes.flatMap WindowNote.entry := by
  induction notes generalizing text with
  | nil => exact (List.append_nil text).symm
  | cons note notes ih =>
    rw [List.foldl_cons, ih fun str hstr => h str (List.mem_cons_of_mem note hstr),
      List.flatMap_cons, ← List.append_assoc]
    refine congrArg (· ++ _) ?_
    cases note with
    | appended now str => rfl
    | overwritten str => exact absurd List.mem_cons_self (h str)
    | posted event => exact (List.append_nil text).symm
    | delivered now event => rfl

/-! ### Windows that only post and deliver -/

/-- The input is an event that is posted or delivered, not a call of the window. -/
def Eventual : WindowInput → Prop
  | .post _ | .deliver _ => True
  | .appendMsg _ _ | .overWriteMsg _ => False

theorem Eventual.defined {input : WindowInput} (h : Eventual input) : Defined input := by
  cases input with
  | post | deliver => trivial
  | appendMsg | overWriteMsg => exact h.elim

/-- The deliveries, with the times they are handled at. -/
def WindowNote.timed : WindowNote → List (QDateTime × Nat × QStringEvent)
  | delivered now event => [(now, event)]
  | appended _ _ | overwritten _ | posted _ => []

theorem timed_snd (notes : List WindowNote) :
    (notes.flatMap WindowNote.timed).map Prod.snd = notes.flatMap WindowNote.delivery := by
  rw [List.map_flatMap]
  congr 1
  funext note
  cases note <;> rfl

theorem foldl_shows_step (s : Window) {input : WindowInput} (h : Eventual input)
    (text : List UInt16) :
    (window.step s input).2.foldl shows text =
      logged text ((window.step s input).2.flatMap WindowNote.timed) := by
  cases input with
  | appendMsg | overWriteMsg => exact h.elim
  | post post => exact (List.append_nil text).symm
  | deliver now =>
    obtain ⟨queue, receiver⟩ := s
    cases queue with
    | nil => exact (List.append_nil text).symm
    | cons event queue =>
      change text ++ line now event.2.m_msg = logged text [(now, event)]
      rw [logged, List.flatMap_singleton]

/-- Such a window shows one line for each delivery. -/
theorem foldl_shows_eventual {inputs : List WindowInput} (h : ∀ input ∈ inputs, Eventual input)
    (s : Window) (text : List UInt16) :
    (window.log s inputs).foldl shows text =
      logged text ((window.log s inputs).flatMap WindowNote.timed) := by
  induction inputs generalizing s text with
  | nil => exact (List.append_nil text).symm
  | cons input inputs ih =>
    rw [Machine.log_cons, List.foldl_append, foldl_shows_step s (h input List.mem_cons_self),
      ih fun i hi => h i (List.mem_cons_of_mem input hi), List.flatMap_append, logged_append]

end XChaty.Chat
