import Mathlib.Data.List.Infix
import XChaty.Client.StartUp

/-! How often the start-up windows send.  A message that goes off disables the buttons of the login
window for good, and a registration closes its window; so a run sends one login at most and then one
registration at most. -/

namespace XChaty.Client

open Qt Protoc ProofKit

section Sendings

variable (md5Hex : QString → QString)

/-- The message that a click has built. -/
def builtBy : Except Fault (Option ChatyMessage) → Option ChatyMessage
  | .ok msg => msg
  | .error _ => none

/-- The messages of a run, in order. -/
def messages (s : StartUp) (actions : List Action) : List ChatyMessage :=
  ((startUp md5Hex).outputs s actions).filterMap builtBy

def types (msgs : List ChatyMessage) : List UInt8 := msgs.map fun msg => msg.msgHead.msgType

/-- The types of the messages that the windows may still send. -/
def MaySend (d : Dialogs) (types : List UInt8) : Prop :=
  if d.enabled then
    types <+: [RequestType.reqLogin.code, RequestType.reqRegist.code] ∨
      types = [RequestType.reqRegist.code]
  else if ∃ window ∈ d.regWindow, window.shown then types <+: [RequestType.reqRegist.code]
  else types = []

theorem maySend_enabled {d : Dialogs} (h : d.enabled = true) (types : List UInt8) :
    MaySend d types ↔ types <+: [RequestType.reqLogin.code, RequestType.reqRegist.code] ∨
      types = [RequestType.reqRegist.code] := by
  rw [MaySend, if_pos h]

theorem maySend_nil (d : Dialogs) : MaySend d [] := by
  rw [MaySend]
  split
  · exact .inl List.nil_prefix
  · split
    · exact List.nil_prefix
    · rfl

/-- What windows that are disabled may send is at most a registration. -/
theorem MaySend.regist {d : Dialogs} (h : d.enabled = false) {types : List UInt8}
    (hsend : MaySend d types) : types <+: [RequestType.reqRegist.code] := by
  rw [MaySend, if_neg (by simp [h])] at hsend
  split at hsend
  · exact hsend
  · exact hsend ▸ List.nil_prefix

theorem MaySend.nothing {d : Dialogs} (h : d.enabled = false)
    (hclosed : ¬∃ window ∈ d.regWindow, window.shown) {types : List UInt8}
    (hsend : MaySend d types) : types = [] := by
  rwa [MaySend, if_neg (by simp [h]), if_neg hclosed] at hsend

variable {md5Hex} {s : StartUp} {d : Dialogs}

/-- What one click sends, and whether the buttons are enabled after it. -/
theorem MaySend.step (h : Shows md5Hex s d) (a : Action) {rest : List UInt8}
    (hrest : MaySend (dialogs.step d a).1 rest) :
    MaySend d (types (builtBy ((startUp md5Hex).step s a).2).toList ++ rest) := by
  cases a with
  | register =>
    change MaySend d rest
    change MaySend (if d.enabled then _ else d) rest at hrest
    by_cases henabled : d.enabled = true
    · rw [if_pos henabled] at hrest
      exact (maySend_enabled henabled rest).mpr ((maySend_enabled (by exact henabled) rest).mp hrest)
    · rwa [if_neg henabled] at hrest
  | login name passwd connfd now =>
    by_cases hactive : s.logBtn = true ∧ Filled name passwd
    · have henabled : d.enabled = true := h.logBtn.symm.trans hactive.1
      rw [login_step connfd now hactive.1 hactive.2]
      simp only [dialogs, if_pos (And.intro henabled hactive.2)] at hrest
      by_cases hfailed : connfd < 0
      · simp only [sent, if_pos hfailed]
        rw [maySend_enabled (by simpa using hfailed)] at hrest
        exact (maySend_enabled henabled _).mpr hrest
      · simp only [sent, if_neg hfailed]
        have hregist := hrest.regist (by simpa using hfailed)
        exact (maySend_enabled henabled _).mpr (.inl ((List.prefix_cons_inj _).mpr hregist))
    · have hdialog : ¬(d.enabled = true ∧ Filled name passwd) := by rwa [← h.logBtn]
      rw [login_step_of_not connfd now hactive]
      simp only [dialogs, if_neg hdialog] at hrest
      exact hrest
  | confirm name passwd passwd_re connfd now =>
    by_cases hactive : (∃ window ∈ d.regWindow, window.shown) ∧ Filled name passwd ∧
        passwd.units = passwd_re.units
    · obtain ⟨window, b, user, -, -, -, -, hstep⟩ :=
        confirm_step connfd now h hactive.1 hactive.2.1 hactive.2.2
      rw [hstep]
      simp only [dialogs, if_pos hactive] at hrest
      by_cases hfailed : connfd < 0
      · simp only [sent, if_pos hfailed]
        by_cases henabled : d.enabled = true
        · rw [maySend_enabled (by simp [henabled, hfailed])] at hrest
          exact (maySend_enabled henabled _).mpr hrest
        · rw [hrest.nothing (by simp [henabled]) (by simp)]
          exact maySend_nil d
      · -- The registration is the last message.
        simp only [sent, if_neg hfailed]
        rw [hrest.nothing (by simp [hfailed]) (by simp), MaySend]
        split
        · exact .inr rfl
        · rw [if_pos hactive.1]
          exact List.prefix_rfl
    · rw [confirm_step_of_not connfd now h hactive]
      simp only [dialogs, if_neg hactive] at hrest
      exact hrest
  | cancel =>
    change MaySend d rest
    by_cases henabled : d.enabled = true
    · exact (maySend_enabled henabled rest).mpr ((maySend_enabled (by exact henabled) rest).mp hrest)
    · have hdisabled : (dialogs.step d .cancel).1.enabled = false := by
        change d.enabled = false
        simpa using henabled
      have hhidden : ¬∃ window ∈ (dialogs.step d .cancel).1.regWindow, window.shown := by
        rintro ⟨window, hwindow, hshown⟩
        obtain ⟨old, -, rfl⟩ := Option.map_eq_some_iff.mp hwindow
        cases hshown
      rw [hrest.nothing hdisabled hhidden]
      exact maySend_nil d

theorem messages_cons (s : StartUp) (a : Action) (actions : List Action) :
    messages md5Hex s (a :: actions) = (builtBy ((startUp md5Hex).step s a).2).toList ++
      messages md5Hex ((startUp md5Hex).step s a).1 actions := by
  rw [messages, Machine.outputs_cons, List.filterMap_cons]
  cases builtBy ((startUp md5Hex).step s a).2 <;> rfl

theorem maySend_run (h : Shows md5Hex s d) (actions : List Action) :
    MaySend d (types (messages md5Hex s actions)) := by
  induction actions generalizing s d with
  | nil => exact maySend_nil d
  | cons a actions ih =>
    have hstep := MaySend.step h a (ih (h.step a))
    simp only [types, ← List.map_append] at hstep
    rw [types, messages_cons]
    exact hstep

/-! ### After a message -/

theorem enabled_of_run (d : Dialogs) (actions : List Action)
    (h : (dialogs.run d actions).enabled = true) : d.enabled = true := by
  induction actions generalizing d with
  | nil => exact h
  | cons a actions ih =>
    have hnext := ih _ h
    cases a with
    | register =>
      by_contra hdisabled
      simp only [dialogs, if_neg hdisabled] at hnext
      exact hdisabled hnext
    | login name passwd connfd now =>
      by_contra hdisabled
      simp only [dialogs, if_neg fun hactive : _ ∧ _ => hdisabled hactive.1] at hnext
      exact hdisabled hnext
    | confirm name passwd passwd_re connfd now =>
      simp only [dialogs] at hnext
      split at hnext
      · simp at hnext
        exact hnext.1
      · exact hnext
    | cancel => exact hnext

theorem built_of_enabled (h : Shows md5Hex s d) {a : Action}
    (henabled : (dialogs.step d a).1.enabled = true) :
    builtBy ((startUp md5Hex).step s a).2 = none := by
  cases a with
  | register | cancel => rfl
  | login name passwd connfd now =>
    by_cases hactive : s.logBtn = true ∧ Filled name passwd
    · have hdialog : d.enabled = true := h.logBtn.symm.trans hactive.1
      simp only [dialogs, if_pos (And.intro hdialog hactive.2), decide_eq_true_eq] at henabled
      rw [login_step connfd now hactive.1 hactive.2, sent, if_pos henabled]
      rfl
    · rw [login_step_of_not connfd now hactive]
      rfl
  | confirm name passwd passwd_re connfd now =>
    by_cases hactive : (∃ window ∈ d.regWindow, window.shown) ∧ Filled name passwd ∧
        passwd.units = passwd_re.units
    · obtain ⟨window, b, user, -, -, -, -, hstep⟩ :=
        confirm_step connfd now h hactive.1 hactive.2.1 hactive.2.2
      simp only [dialogs, if_pos hactive, decide_eq_true_eq] at henabled
      rw [hstep, sent, if_pos henabled.2]
      rfl
    · rw [confirm_step_of_not connfd now h hactive]
      rfl

/-- While the buttons are enabled no message has gone off. -/
theorem messages_of_enabled (h : Shows md5Hex s d) {actions : List Action}
    (henabled : (dialogs.run d actions).enabled = true) : messages md5Hex s actions = [] := by
  induction actions generalizing s d with
  | nil => rfl
  | cons a actions ih =>
    rw [messages_cons, built_of_enabled h (enabled_of_run _ actions henabled)]
    exact ih (h.step a) henabled

/-! ### What is sent -/

/-- No user has been given an id. -/
def Unnamed (s : StartUp) : Prop := ∀ user ∈ s.heap, user.id = .text []

/-- The login or the registration of a user without an id. -/
def Anonymous (msg : ChatyMessage) : Prop :=
  ∃ now type user, (type = .reqLogin ∨ type = .reqRegist) ∧ msg = credentials now type user ∧
    user.id = .text []

theorem Unnamed.newUser (h : Unnamed s) {user : User} (hid : user.id = .text []) :
    Unnamed (s.newUser user) := by
  intro user' hmem
  rcases List.mem_append.mp hmem with hold | hnew
  · exact h user' hold
  · rw [List.mem_singleton.mp hnew]
    exact hid

theorem Unnamed.written (h : Unnamed s) (a : Nat) (name passwd : QString) :
    Unnamed (s.written md5Hex a name passwd) := by
  intro user hmem
  obtain ⟨i, hi, rfl⟩ := List.getElem_of_mem hmem
  simp only [StartUp.written, List.length_modify] at hi
  have hcell := h s.heap[i] (List.getElem_mem hi)
  simp only [StartUp.written, List.getElem_modify]
  split <;> exact hcell

/-- What a call leaves and what it builds. -/
def Posts (result : Except Fault (StartUp × Option ChatyMessage)) : Prop :=
  ∀ s' msg, result = .ok (s', msg) → Unnamed s' ∧ ∀ m ∈ msg, Anonymous m

theorem Unnamed.postUserInfo (h : Unnamed s) (connfd : Int) (now : QString) {type : RequestType}
    (htype : type = .reqLogin ∨ type = .reqRegist) : Posts (s.postUserInfo connfd now type) := by
  intro s' msg hcall
  cases huser : s.user with
  | none =>
    rw [StartUp.postUserInfo, huser] at hcall
    split at hcall
    · cases hcall
      exact ⟨h, fun m hm => by cases hm⟩
    · cases hcall
  | some user =>
    rw [postUserInfo_of_user connfd now huser htype] at hcall
    cases hcall
    refine ⟨h, fun m hm => ⟨now, type, user, htype, (sent_eq_some_iff.mp hm).2.symm, ?_⟩⟩
    obtain ⟨a, -, hcell⟩ := Option.bind_eq_some_iff.mp huser
    exact h user (List.mem_of_getElem? hcell)

theorem Unnamed.onLogin (h : Unnamed s) (name passwd : QString) (connfd : Int) (now : QString) :
    Posts (s.onLogin md5Hex name passwd connfd now) := by
  rw [StartUp.onLogin]
  split
  · intro s' msg hcall
    cases hcall
    exact ⟨h, fun m hm => by cases hm⟩
  · exact (h.newUser rfl).postUserInfo connfd now (.inl rfl)

theorem Unnamed.onConfirm (h : Unnamed s) (window : RegWindow) (name passwd passwd_re : QString)
    (connfd : Int) (now : QString) :
    Posts (s.onConfirmBtnClicked md5Hex window name passwd passwd_re connfd now) := by
  intro s' msg hcall
  by_cases hform : Filled name passwd ∧ passwd.units = passwd_re.units
  · rw [StartUp.onConfirmBtnClicked, if_neg (fun hempty =>
      (not_filled_iff name passwd).mpr hempty hform.1), if_neg (not_not.mpr hform.2)] at hcall
    cases hwindow : window.m_user with
    | none =>
      rw [hwindow] at hcall
      cases hcall
    | some a =>
      rw [hwindow] at hcall
      have hwritten : Unnamed (s.written md5Hex a name passwd) := h.written a name passwd
      have hposts := hwritten.postUserInfo connfd now (.inr rfl)
      change Except.bind ((s.written md5Hex a name passwd).postUserInfo connfd now .reqRegist)
        _ = _ at hcall
      generalize (s.written md5Hex a name passwd).postUserInfo connfd now .reqRegist = result
        at hposts hcall
      cases result with
      | error fault => cases hcall
      | ok result =>
        cases hcall
        exact hposts result.1 result.2 rfl
  · rw [onConfirm_of_not_filled md5Hex s connfd now window hform] at hcall
    cases hcall
    exact ⟨h, fun m hm => by cases hm⟩

theorem Unnamed.called (h : Unnamed s) {result : Except Fault (StartUp × Option ChatyMessage)}
    (hposts : Posts result) :
    Unnamed (s.called result).1 ∧ ∀ m ∈ builtBy (s.called result).2, Anonymous m := by
  cases result with
  | ok result => exact hposts result.1 result.2 rfl
  | error fault => exact ⟨h, fun m hm => by cases hm⟩

theorem Unnamed.step (h : Unnamed s) (a : Action) :
    Unnamed ((startUp md5Hex).step s a).1 ∧
      ∀ m ∈ builtBy ((startUp md5Hex).step s a).2, Anonymous m := by
  have hidle : Unnamed s ∧ ∀ m ∈ (none : Option ChatyMessage), Anonymous m :=
    ⟨h, fun m hm => by cases hm⟩
  cases a with
  | register =>
    refine ⟨?_, hidle.2⟩
    simp only [startUp, StartUp.onRegBtnClicked]
    split
    · split
      · split
        · exact h.newUser rfl
        · exact h
      · exact h
    · exact h
  | login name passwd connfd now =>
    simp only [startUp]
    split
    · exact h.called (h.onLogin name passwd connfd now)
    · exact hidle
  | confirm name passwd passwd_re connfd now =>
    simp only [startUp]
    split
    · exact hidle
    · rename_i window _
      split
      · exact h.called (h.onConfirm window name passwd passwd_re connfd now)
      · exact hidle
  | cancel => exact hidle

end Sendings

/-- A run sends one login at most and then one registration at most, and once anything has been sent
the buttons are disabled. -/
theorem sent_once (md5Hex : QString → QString) (actions : List Action) :
    let sent := types (messages md5Hex StartUp.new actions)
    let s := (startUp md5Hex).run StartUp.new actions
    (sent <+: [RequestType.reqLogin.code, RequestType.reqRegist.code] ∨
        sent = [RequestType.reqRegist.code]) ∧
      (sent ≠ [] → s.logBtn = false ∧ s.regBtn = false) := by
  intro sent s
  refine ⟨(maySend_enabled rfl _).mp (maySend_run shows_new actions), fun hsent => ?_⟩
  have hshows := @shows_run md5Hex actions
  rw [hshows.logBtn, hshows.regBtn, and_self]
  by_contra henabled
  apply hsent
  change types (messages md5Hex StartUp.new actions) = []
  rw [messages_of_enabled shows_new (by simpa using henabled)]
  rfl

end XChaty.Client
