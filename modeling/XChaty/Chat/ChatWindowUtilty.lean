import XChaty.ProofKit.EventLoop
import XChaty.Qt.QDateTime

/-! `ChatWindowUtilty`, which keeps the chat log in a text widget, and the `customEvent` that appends
to it the messages that `PostMsg` has put on the event queue.  The widget keeps plain text as it
is. -/

namespace XChaty.Chat

open Qt ProofKit

structure QTextEdit where
  text : List UInt16
deriving DecidableEq, Repr

def QTextEdit.toPlainText (edit : QTextEdit) : QString := .text edit.text

def QTextEdit.setText (_edit : QTextEdit) (str : QString) : QTextEdit := { text := str.units }

structure ChatWindowUtilty where
  m_chatEdit : QTextEdit
deriving DecidableEq, Repr

/-- The last character of an empty string is not defined. -/
def checkAndAddLineBreak (str : QString) : Option QString := do
  let back ← str.units.getLast?
  return str ++ (if back = 10 then QString.ofLiteral "" else QString.ofLiteral "\n")

def ChatWindowUtilty.showMsg (chat : ChatWindowUtilty) (str : QString) :
    Option ChatWindowUtilty := do
  let newStr ← checkAndAddLineBreak str
  return { chat with m_chatEdit := chat.m_chatEdit.setText newStr }

def ChatWindowUtilty.appendMsg (chat : ChatWindowUtilty) (now : QDateTime) (str : QString) :
    Option ChatWindowUtilty :=
  let chatContent := chat.m_chatEdit.toPlainText
  let chatContent := chatContent ++ now.toString ++ str
  chat.showMsg chatContent

/-! ### Events -/

def qEventRecvMsg : Nat := 1000 + 1

structure QStringEvent where
  m_msg : QString
  type : Nat
deriving DecidableEq, Repr

def QStringEvent.new (msg : QString) : QStringEvent := { m_msg := msg, type := qEventRecvMsg }

/-- The message of one call of `PostMsg`, with the number of the thread that makes it. -/
structure Post where
  sender : Nat
  msg : QString
deriving DecidableEq, Repr

/-- The event on the queue, with the number of its sender. -/
def postMsg (post : Post) : Nat × QStringEvent := (post.sender, QStringEvent.new post.msg)

/-- The sender and the text of an event. -/
def postOf (event : Nat × QStringEvent) : Post := { sender := event.1, msg := event.2.m_msg }

theorem map_postOf (posts : List Post) : (posts.map postMsg).map postOf = posts := by
  rw [List.map_map]
  exact List.map_id posts

/-- Events taken and queued that are those of the posts have their senders and texts. -/
theorem posts_of_events {ds : List (QDateTime × Nat × QStringEvent)}
    {queue : List (Nat × QStringEvent)} {posts : List Post}
    (h : ds.map Prod.snd ++ queue = posts.map postMsg) :
    ds.map (fun d => postOf d.2) ++ queue.map postOf = posts := by
  rw [← map_postOf posts, ← h, List.map_append, List.map_map]
  rfl

def customEvent (chat : ChatWindowUtilty) (now : QDateTime) (e : QStringEvent) :
    Option ChatWindowUtilty :=
  if e.type = qEventRecvMsg then chat.appendMsg now e.m_msg else some chat

/-- A delivery to a receiver that no call has failed in. -/
def received (chat : Option ChatWindowUtilty) (now : QDateTime) (e : Nat × QStringEvent) :
    Option ChatWindowUtilty :=
  chat.bind fun chat => customEvent chat now e.2

def openedWith (text : List UInt16) : EventLoop (Option ChatWindowUtilty) (Nat × QStringEvent) :=
  { queue := [], receiver := some { m_chatEdit := { text } } }

section Runs

variable (text : List UInt16) (turns : List (Turn Post QDateTime))

def after : EventLoop (Option ChatWindowUtilty) (Nat × QStringEvent) :=
  (eventLoop received).run (openedWith text) (turns.map (Turn.map postMsg))

def delivered : List (QDateTime × Nat × QStringEvent) :=
  deliveries received (openedWith text) (turns.map (Turn.map postMsg))

end Runs

/-! ### Lines -/

def EndsLine (text : List UInt16) : Prop := text = [] ∨ text.getLast? = some 10

def broken (text : List UInt16) : List UInt16 :=
  if text.getLast? = some 10 then text else text ++ [10]

/-- What the delivery of a message adds to the log. -/
def line (now : QDateTime) (msg : QString) : List UInt16 := broken (now.toString.units ++ msg.units)

theorem broken_getLast? (text : List UInt16) : (broken text).getLast? = some 10 := by
  unfold broken
  by_cases hlast : text.getLast? = some 10
  · rw [if_pos hlast, hlast]
  · rw [if_neg hlast, List.getLast?_append_of_ne_nil text (List.cons_ne_nil 10 [])]
    rfl

theorem prefix_broken (text : List UInt16) : text <+: broken text := by
  unfold broken
  split
  · exact List.prefix_rfl
  · exact List.prefix_append text [10]

theorem broken_append (text : List UInt16) {entry : List UInt16} (h : entry ≠ []) :
    broken (text ++ entry) = text ++ broken entry := by
  unfold broken
  rw [List.getLast?_append_of_ne_nil text h]
  by_cases hlast : entry.getLast? = some 10
  · rw [if_pos hlast, if_pos hlast]
  · rw [if_neg hlast, if_neg hlast, List.append_assoc]

theorem checkAndAddLineBreak_eq {str : QString} (h : str.units ≠ []) :
    checkAndAddLineBreak str = some (.text (broken str.units)) := by
  cases str with
  | null => exact absurd rfl h
  | text units =>
    have hback : units.getLast? = some (units.getLast h) := List.getLast?_eq_some_getLast h
    rw [checkAndAddLineBreak, broken, QString.units_text, hback]
    change some (QString.text units ++ ite _ _ _) = _
    by_cases hbreak : units.getLast h = 10
    · rw [if_pos hbreak, if_pos (congrArg some hbreak)]
      exact congrArg (fun us => some (QString.text us)) (List.append_nil units)
    · rw [if_neg hbreak, if_neg (mt Option.some.inj hbreak)]
      rfl

/-- `AppendMsg` adds one line, whatever the message ends with. -/
theorem appendMsg_eq (chat : ChatWindowUtilty) (now : QDateTime) (msg : QString) :
    chat.appendMsg now msg =
      some { m_chatEdit := { text := chat.m_chatEdit.text ++ line now msg } } := by
  have hentry : now.toString.units ++ msg.units ≠ [] :=
    List.append_ne_nil_of_left_ne_nil now.toString_ne_nil msg.units
  have hunits : (chat.m_chatEdit.toPlainText ++ now.toString ++ msg).units =
      chat.m_chatEdit.text ++ (now.toString.units ++ msg.units) := by
    rw [QString.units_append, QString.units_append, List.append_assoc]
    rfl
  have hne : (chat.m_chatEdit.toPlainText ++ now.toString ++ msg).units ≠ [] := by
    rw [hunits]
    exact List.append_ne_nil_of_right_ne_nil _ hentry
  rw [ChatWindowUtilty.appendMsg, ChatWindowUtilty.showMsg, checkAndAddLineBreak_eq hne, hunits,
    broken_append _ hentry]
  rfl

/-! ### The log -/

/-- A text with one line for each delivery. -/
def logged (text : List UInt16) (ds : List (QDateTime × Nat × QStringEvent)) : List UInt16 :=
  text ++ ds.flatMap fun d => line d.1 d.2.2.m_msg

theorem logged_append (text : List UInt16) (ds es : List (QDateTime × Nat × QStringEvent)) :
    logged text (ds ++ es) = logged (logged text ds) es := by
  simp [logged]

theorem logged_cons (text : List UInt16) (d : QDateTime × Nat × QStringEvent)
    (ds : List (QDateTime × Nat × QStringEvent)) :
    logged text (d :: ds) = logged (text ++ line d.1 d.2.2.m_msg) ds := by
  simp [logged]

theorem prefix_logged (text : List UInt16) (ds : List (QDateTime × Nat × QStringEvent)) :
    text <+: logged text ds :=
  List.prefix_append text _

theorem endsLine_logged {text : List UInt16} (h : EndsLine text)
    (ds : List (QDateTime × Nat × QStringEvent)) : EndsLine (logged text ds) := by
  induction ds generalizing text with
  | nil => simpa [logged] using h
  | cons d ds ih =>
    rw [logged_cons]
    apply ih
    right
    rw [line, List.getLast?_append, broken_getLast?]
    rfl

theorem foldl_received (ds : List (QDateTime × Nat × QStringEvent))
    (htype : ∀ d ∈ ds, d.2.2.type = qEventRecvMsg) (text : List UInt16) :
    ds.foldl (fun chat d => received chat d.1 d.2) (some { m_chatEdit := { text } }) =
      some { m_chatEdit := { text := logged text ds } } := by
  induction ds generalizing text with
  | nil => simp [logged]
  | cons d ds ih =>
    have hreceived : received (some { m_chatEdit := { text } }) d.1 d.2 =
        some { m_chatEdit := { text := text ++ line d.1 d.2.2.m_msg } } := by
      rw [received, Option.bind_some, customEvent, if_pos (htype d List.mem_cons_self),
        appendMsg_eq]
    rw [List.foldl_cons, hreceived, logged_cons]
    exact ih (fun e he => htype e (List.mem_cons_of_mem d he)) _

/-- The log that a run leaves on top of an earlier text.  The deliveries have the senders and texts of
the posts, in order, up to those that are still on the queue; the log is the earlier text with one
line for each of them. -/
structure Log (text : List UInt16) (turns : List (Turn Post QDateTime))
    (log : List UInt16) : Prop where
  running : (after text turns).receiver = some { m_chatEdit := { text := log } }
  posted : (delivered text turns).map (fun d => postOf d.2) ++ (after text turns).queue.map postOf =
    posts turns
  lines : log = logged text (delivered text turns)
  ends : EndsLine log

theorem delivered_events (text : List UInt16) (turns : List (Turn Post QDateTime)) :
    (delivered text turns).map Prod.snd ++ (after text turns).queue = (posts turns).map postMsg := by
  rw [delivered, after, eventLoop_fifo, posts_map]
  rfl

theorem delivered_type {text : List UInt16} {turns : List (Turn Post QDateTime)}
    {d : QDateTime × Nat × QStringEvent} (h : d ∈ delivered text turns) :
    d.2.2.type = qEventRecvMsg := by
  have hmem : d.2 ∈ (posts turns).map postMsg := by
    rw [← delivered_events text turns]
    exact List.mem_append_left _ (List.mem_map_of_mem h)
  obtain ⟨post, -, hpost⟩ := List.mem_map.mp hmem
  rw [← hpost]
  rfl

theorem log_of_run {text : List UInt16} (h : EndsLine text) (turns : List (Turn Post QDateTime)) :
    Log text turns (logged text (delivered text turns)) where
  running := by
    rw [after, eventLoop_receiver]
    exact foldl_received (delivered text turns) (fun d hd => delivered_type hd) text
  posted := posts_of_events (delivered_events text turns)
  lines := rfl
  ends := endsLine_logged h _

theorem delivered_append (text : List UInt16) (before rest : List (Turn Post QDateTime)) :
    delivered text before <+: delivered text (before ++ rest) := by
  unfold delivered
  rw [List.map_append, deliveries_append]
  exact List.prefix_append _ _

/-- In every run, from a text that is empty or ends a line, the log ends a line and keeps every
earlier log in front; each delivery starts a line with its time, and the texts delivered of one sender
are those that it has posted, in order. -/
theorem log_keeps {text : List UInt16} (h : EndsLine text) (turns : List (Turn Post QDateTime)) :
    ∃ log, Log text turns log ∧
      (∀ before rest, turns = before ++ rest →
        ∃ earlier, Log text before earlier ∧ earlier <+: log) ∧
      (∀ before d rest, delivered text turns = before ++ d :: rest →
        EndsLine (logged text before) ∧
          logged text before ++ (d.1.toString.units ++ d.2.2.m_msg.units) <+: log) ∧
      ∀ sender, ((delivered text turns).map fun d => postOf d.2).filter (·.sender = sender) <+:
        (posts turns).filter (·.sender = sender) := by
  refine ⟨_, log_of_run h turns, ?_, ?_, ?_⟩
  · rintro before rest rfl
    refine ⟨_, log_of_run h before, ?_⟩
    obtain ⟨more, hmore⟩ := delivered_append text before rest
    rw [← hmore, logged_append]
    exact prefix_logged _ more
  · intro before d rest hsplit
    refine ⟨endsLine_logged h before, ?_⟩
    rw [hsplit, logged_append, logged_cons]
    refine List.IsPrefix.trans ?_ (prefix_logged _ rest)
    apply (List.prefix_append_right_inj _).mpr
    exact prefix_broken _
  · intro sender
    rw [← posts_of_events (delivered_events text turns), List.filter_append]
    exact List.prefix_append _ _

/-! ### Two senders -/

def noon : QDateTime := ⟨2024, 3, 9, 12, 0, 0, 0⟩

def twoSenders : List (Turn Post QDateTime) :=
  [.post ⟨1, .ofLiteral "a"⟩, .post ⟨2, .ofLiteral "b\n"⟩, .deliver noon, .deliver noon]

example : (after [] twoSenders).receiver = some { m_chatEdit := { text :=
    (QString.ofLiteral "[2024-03-09 12:00:00.000] a\n[2024-03-09 12:00:00.000] b\n").units } } := by
  decide

theorem log_keeps_two_senders :
    ∃ log, Log [104, 10] twoSenders log ∧
      (∀ before rest, twoSenders = before ++ rest →
        ∃ earlier, Log [104, 10] before earlier ∧ earlier <+: log) ∧
      (∀ before d rest, delivered [104, 10] twoSenders = before ++ d :: rest →
        EndsLine (logged [104, 10] before) ∧
          logged [104, 10] before ++ (d.1.toString.units ++ d.2.2.m_msg.units) <+: log) ∧
      ∀ sender, ((delivered [104, 10] twoSenders).map fun d => postOf d.2).filter
          (·.sender = sender) <+:
        (posts twoSenders).filter (·.sender = sender) :=
  log_keeps (.inr rfl) twoSenders

end XChaty.Chat
