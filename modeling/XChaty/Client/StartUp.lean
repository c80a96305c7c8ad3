import XChaty.Client.LoginWindow
import XChaty.ProofKit.Machine

/-! The start-up windows of the client: `LoginWindow` with the `RegWindow` that it opens.  Both point
to `User` objects, which are cells of a heap.  A registration window is given the pointer that
`LoginWindow` has when it is made; `OnLogin` points `LoginWindow` to a new object, and from then on
what the registration form writes is not what `PostUserInfo` sends. -/

namespace XChaty.Client

open Qt Protoc ProofKit

structure RegWindow where
  m_user : Option Nat
  shown : Bool
deriving DecidableEq, Repr

/-- The `User` objects at their addresses, the members of `LoginWindow` that point to them or to
windows, and whether its buttons are enabled. -/
structure StartUp where
  heap : List User
  m_user : Option Nat
  m_regWindow : Option RegWindow
  logBtn : Bool
  regBtn : Bool
deriving DecidableEq, Repr

def StartUp.new : StartUp :=
  { heap := [], m_user := none, m_regWindow := none, logBtn := true, regBtn := true }

/-- `m_user = new chaty::User`, with the fields of `user`. -/
def StartUp.newUser (s : StartUp) (user : User) : StartUp :=
  { s with heap := s.heap ++ [user], m_user := some s.heap.length }

/-- `*m_user`. -/
def StartUp.user (s : StartUp) : Option User := s.m_user.bind fun a => s.heap[a]?

/-- The register button. -/
def StartUp.onRegBtnClicked (s : StartUp) : StartUp :=
  match s.m_regWindow with
  | none =>
    let s := if s.m_user.isNone then s.newUser User.new else s
    { s with m_regWindow := some { m_user := s.m_user, shown := true } }
  | some window => { s with m_regWindow := some { window with shown := true } }

/-- `PostUserInfo`, when `createsocket` returns `connfd`, with the message that it builds. -/
def StartUp.postUserInfo (s : StartUp) (connfd : Int) (now : QString) (_msgType : RequestType) :
    Except Fault (StartUp × Option ChatyMessage) :=
  if connfd < 0 then return (s, none)
  else do
    let user ← deref .nullUser s.user
    let loginMsg : LoginMsg := { user }
    let msg ← ChatyMessage.ofRequest now _msgType (some (.loginMsg loginMsg))
    return ({ s with logBtn := false, regBtn := false }, some msg)

section Forms

-- `QCryptographicHash::hash(text.toUtf8(), QCryptographicHash::Md5).toHex()`.
variable (md5Hex : QString → QString)

def StartUp.onLogin (s : StartUp) (name passwd : QString) (connfd : Int) (now : QString) :
    Except Fault (StartUp × Option ChatyMessage) :=
  if name.units = [] ∨ passwd.units = [] then return (s, none)
  else
    let passwd_md5 := md5Hex passwd
    let s := s.newUser { User.new with userName := name, passwd := passwd_md5 }
    s.postUserInfo connfd now .reqLogin

/-- `onConfirmBtnClicked`, with the slot that `RegisterSuccess` runs. -/
def StartUp.onConfirmBtnClicked (s : StartUp) (window : RegWindow)
    (name passwd passwd_re : QString) (connfd : Int) (now : QString) :
    Except Fault (StartUp × Option ChatyMessage) :=
  if name.units = [] ∨ passwd.units = [] then return (s, none)
  else if passwd.units ≠ passwd_re.units then return (s, none)
  else do
    let a ← deref .nullUser window.m_user
    let s := { s with
      heap := s.heap.modify a fun user => { user with userName := name, passwd := md5Hex passwd } }
    let (s, msg) ← s.postUserInfo connfd now .reqRegist
    return ({ s with m_regWindow := none }, msg)

/-! ### Runs -/

/-- What the user does, with what `createsocket` returns and the clock reads when a message is
posted.  `cancel` also stands for any other way to close the registration window. -/
inductive Action
  | register
  | login (name passwd : QString) (connfd : Int) (now : QString)
  | confirm (name passwd passwd_re : QString) (connfd : Int) (now : QString)
  | cancel
deriving DecidableEq, Repr

/-- The state after a call and the message that it has built; a fault leaves the state. -/
def StartUp.called (s : StartUp) (result : Except Fault (StartUp × Option ChatyMessage)) :
    StartUp × Except Fault (Option ChatyMessage) :=
  match result with
  | .ok (s, msg) => (s, .ok msg)
  | .error fault => (s, .error fault)

/-- A button does nothing while it is disabled or its window is not shown. -/
def startUp : Machine StartUp Action (Except Fault (Option ChatyMessage)) where
  step s
    | .register => (if s.regBtn then s.onRegBtnClicked else s, .ok none)
    | .login name passwd connfd now =>
      if s.logBtn then s.called (s.onLogin md5Hex name passwd connfd now) else (s, .ok none)
    | .confirm name passwd passwd_re connfd now =>
      match s.m_regWindow with
      | none => (s, .ok none)
      | some window =>
        if window.shown then
          s.called (s.onConfirmBtnClicked md5Hex window name passwd passwd_re connfd now)
        else (s, .ok none)
    | .cancel =>
      ({ s with m_regWindow := s.m_regWindow.map fun window => { window with shown := false } },
        .ok none)

/-- The message is of the type and carries the name and the password. -/
def Carries (msg : ChatyMessage) (type : RequestType) (name passwd : QString) : Prop :=
  msg.msgHead.msgType = type.code ∧ ∃ user, msg.pMsgBody = some (.loginMsg { user }) ∧
    user.userName = name ∧ user.passwd = passwd

/-- The message carries what was entered in the form whose button was clicked. -/
def Entered (msg : ChatyMessage) : Action → Prop
  | .login name passwd _ _ => Carries msg .reqLogin name (md5Hex passwd)
  | .confirm name passwd _ _ _ => Carries msg .reqRegist name (md5Hex passwd)
  | .register | .cancel => False

/-- Every message of a run carries what was entered at the click that built it. -/
def RightCredentials (actions : List Action) : Prop :=
  ∀ before a rest msg, actions = before ++ a :: rest →
    ((startUp md5Hex).step ((startUp md5Hex).run StartUp.new before) a).2 = .ok (some msg) →
    Entered md5Hex msg a

end Forms

/-! ### What the user sees

The windows without their objects: whether the buttons of the login window are enabled, and the
registration window with the last login form that was sent off since the window was made. -/

structure RegDialog where
  shown : Bool
  lastLogin : Option (QString × QString)
deriving DecidableEq, Repr

structure Dialogs where
  enabled : Bool
  regWindow : Option RegDialog
deriving DecidableEq, Repr

def Dialogs.new : Dialogs := { enabled := true, regWindow := none }

def Filled (name passwd : QString) : Prop := name.units ≠ [] ∧ passwd.units ≠ []

instance (name passwd : QString) : Decidable (Filled name passwd) :=
  inferInstanceAs (Decidable (name.units ≠ [] ∧ passwd.units ≠ []))

theorem not_filled_iff (name passwd : QString) :
    ¬Filled name passwd ↔ name.units = [] ∨ passwd.units = [] := by
  rw [Filled, not_and_or, not_not, not_not]

def dialogs : Machine Dialogs Action Unit where
  step d
    | .register =>
      let window := d.regWindow.getD { shown := false, lastLogin := none }
      (if d.enabled then { d with regWindow := some { window with shown := true } } else d, ())
    | .login name passwd connfd _ =>
      (if d.enabled ∧ Filled name passwd then
        { enabled := connfd < 0
          regWindow := d.regWindow.map fun window =>
            { window with lastLogin := some (name, passwd) } }
      else d, ())
    | .confirm name passwd passwd_re connfd _ =>
      (if (∃ window ∈ d.regWindow, window.shown) ∧ Filled name passwd ∧
          passwd.units = passwd_re.units then
        { enabled := d.enabled ∧ connfd < 0, regWindow := none }
      else d, ())
    | .cancel =>
      ({ d with regWindow := d.regWindow.map fun window => { window with shown := false } }, ())

/-! ### What a click does -/

def credentials (now : QString) (type : RequestType) (user : User) : ChatyMessage :=
  { msgHead := { time := now, msgType := type.code }, pMsgBody := some (.loginMsg { user }) }

def sent (connfd : Int) (msg : ChatyMessage) : Option ChatyMessage :=
  if connfd < 0 then none else some msg

def StartUp.posted (s : StartUp) (connfd : Int) : StartUp :=
  { s with logBtn := s.logBtn ∧ connfd < 0, regBtn := s.regBtn ∧ connfd < 0 }

theorem posted_of_failed (s : StartUp) {connfd : Int} (h : connfd < 0) : s.posted connfd = s := by
  simp [StartUp.posted, h]

theorem posted_of_connected (s : StartUp) {connfd : Int} (h : ¬connfd < 0) :
    s.posted connfd = { s with logBtn := false, regBtn := false } := by
  simp [StartUp.posted, h]

theorem postUserInfo_of_user {s : StartUp} {user : User} (connfd : Int) (now : QString)
    {_msgType : RequestType} (huser : s.user = some user)
    (htype : _msgType = .reqLogin ∨ _msgType = .reqRegist) :
    s.postUserInfo connfd now _msgType =
      .ok (s.posted connfd, sent connfd (credentials now _msgType user)) := by
  unfold StartUp.postUserInfo sent
  by_cases hfailed : connfd < 0
  · rw [if_pos hfailed, if_pos hfailed, posted_of_failed s hfailed]
    rfl
  · rw [if_neg hfailed, if_neg hfailed, posted_of_connected s hfailed, huser]
    rcases htype with rfl | rfl
    · rfl
    · rfl

/-- The login window as `PostUserInfo` sees it. -/
def StartUp.window (s : StartUp) : LoginWindow :=
  { LoginWindow.new with m_user := s.user, logBtn := s.logBtn, regBtn := s.regBtn }

/-- What is put on the connection is the message serialised, and the windows agree. -/
theorem postUserInfo_window {s : StartUp} {user : User} (createsocket : Int → QString → Int)
    (now : QString) (order : Order) {_msgType : RequestType} (huser : s.user = some user)
    (htype : _msgType = .reqLogin ∨ _msgType = .reqRegist) :
    requestBytes now _msgType user = serrialize (credentials now _msgType user) ∧
      ∃ posting, postUserInfo createsocket now order s.window _msgType = .ok posting ∧
        posting.window =
          (s.posted (createsocket s.window.m_serverPort s.window.m_serverHost)).window := by
  have hmessage : requestBytes now _msgType user = serrialize (credentials now _msgType user) := by
    rcases htype with rfl | rfl
    · rfl
    · rfl
  refine ⟨hmessage, ?_⟩
  by_cases hfailed : createsocket s.window.m_serverPort s.window.m_serverHost < 0
  · rw [posted_of_failed s hfailed, postUserInfo, if_pos hfailed]
    exact ⟨_, rfl, rfl⟩
  · obtain ⟨ba, hbytes⟩ := requestBytes_login_regist now user htype
    rw [posted_of_connected s hfailed]
    exact ⟨_, postUserInfo_eq order (not_lt.mp hfailed) huser hbytes, rfl⟩

theorem user_newUser (s : StartUp) (user : User) : (s.newUser user).user = some user := by
  simp [StartUp.newUser, StartUp.user]

section Clicks

variable (md5Hex : QString → QString) (s : StartUp) {name passwd passwd_re : QString}
  (connfd : Int) (now : QString)

theorem onLogin_of_filled (h : Filled name passwd) :
    s.onLogin md5Hex name passwd connfd now =
      .ok ((s.newUser { User.new with userName := name, passwd := md5Hex passwd }).posted connfd,
        sent connfd (credentials now .reqLogin
          { User.new with userName := name, passwd := md5Hex passwd })) := by
  rw [StartUp.onLogin, if_neg (fun hempty => (not_filled_iff name passwd).mpr hempty h)]
  exact postUserInfo_of_user connfd now (user_newUser s _) (.inl rfl)

theorem onLogin_of_not_filled (h : ¬Filled name passwd) :
    s.onLogin md5Hex name passwd connfd now = .ok (s, none) := by
  rw [StartUp.onLogin, if_pos ((not_filled_iff name passwd).mp h)]
  rfl

/-- The object that the form of the registration window writes to, after the click. -/
def StartUp.written (s : StartUp) (a : Nat) (name passwd : QString) : StartUp :=
  { s with
    heap := s.heap.modify a fun user => { user with userName := name, passwd := md5Hex passwd } }

theorem onConfirm_of_filled (window : RegWindow) {a : Nat} {user : User}
    (h : Filled name passwd) (hre : passwd.units = passwd_re.units)
    (hwindow : window.m_user = some a)
    (huser : (s.written md5Hex a name passwd).user = some user) :
    s.onConfirmBtnClicked md5Hex window name passwd passwd_re connfd now =
      .ok ({ (s.written md5Hex a name passwd).posted connfd with m_regWindow := none },
        sent connfd (credentials now .reqRegist user)) := by
  rw [StartUp.onConfirmBtnClicked, if_neg (fun hempty => (not_filled_iff name passwd).mpr hempty h),
    if_neg (not_not.mpr hre), hwindow]
  change Except.bind ((s.written md5Hex a name passwd).postUserInfo connfd now .reqRegist) _ = _
  rw [postUserInfo_of_user connfd now huser (.inr rfl)]
  rfl

theorem onConfirm_of_not_filled (window : RegWindow)
    (h : ¬(Filled name passwd ∧ passwd.units = passwd_re.units)) :
    s.onConfirmBtnClicked md5Hex window name passwd passwd_re connfd now = .ok (s, none) := by
  rw [StartUp.onConfirmBtnClicked]
  by_cases hfilled : Filled name passwd
  · rw [if_neg (fun hempty => (not_filled_iff name passwd).mpr hempty hfilled),
      if_pos fun hre => h ⟨hfilled, hre⟩]
    rfl
  · rw [if_pos ((not_filled_iff name passwd).mp hfilled)]
    rfl

end Clicks

/-! ### The two pointers -/

/-- A registration window has the pointer of the login window until the next login form is sent off;
from then on the login window points to a later object, which holds that form. -/
inductive Pointers (md5Hex : QString → QString) (heap : List User) (m_user : Option Nat) :
    Option RegWindow → Option RegDialog → Prop
  | noWindow : Pointers md5Hex heap m_user none none
  | shared {a : Nat} {shown : Bool} (hlogin : m_user = some a) :
      Pointers md5Hex heap m_user (some ⟨some a, shown⟩) (some ⟨shown, none⟩)
  | apart {a b : Nat} {shown : Bool} {user : User} {passwd : QString} (hlater : a < b)
      (hlogin : m_user = some b) (hcell : heap[b]? = some user)
      (hpasswd : user.passwd = md5Hex passwd) :
      Pointers md5Hex heap m_user (some ⟨some a, shown⟩)
        (some ⟨shown, some (user.userName, passwd)⟩)

structure Shows (md5Hex : QString → QString) (s : StartUp) (d : Dialogs) : Prop where
  logBtn : s.logBtn = d.enabled
  regBtn : s.regBtn = d.enabled
  allocated : ∀ a, s.m_user = some a → a < s.heap.length
  pointers : Pointers md5Hex s.heap s.m_user s.m_regWindow d.regWindow

section Steps

variable {md5Hex : QString → QString} {s : StartUp} {d : Dialogs}

theorem Shows.register (h : Shows md5Hex s d) :
    Shows md5Hex ((startUp md5Hex).step s .register).1 (dialogs.step d .register).1 := by
  obtain ⟨heap, m_user, m_regWindow, logBtn, regBtn⟩ := s
  obtain ⟨enabled, regWindow⟩ := d
  obtain ⟨hlog, hreg, hallocated, hpointers⟩ := h
  simp only at hlog hreg hallocated hpointers
  subst hlog hreg
  cases regBtn with
  | false => exact ⟨rfl, rfl, hallocated, hpointers⟩
  | true =>
    cases hpointers with
    | noWindow =>
      cases m_user with
      | none =>
        refine ⟨rfl, rfl, ?_, .shared rfl⟩
        intro a ha
        cases ha
        simp [startUp, StartUp.onRegBtnClicked, StartUp.newUser]
      | some a => exact ⟨rfl, rfl, hallocated, .shared rfl⟩
    | shared hlogin => exact ⟨rfl, rfl, hallocated, .shared hlogin⟩
    | apart hlater hlogin hcell hpasswd =>
      exact ⟨rfl, rfl, hallocated, .apart hlater hlogin hcell hpasswd⟩

theorem Shows.cancel (h : Shows md5Hex s d) :
    Shows md5Hex ((startUp md5Hex).step s .cancel).1 (dialogs.step d .cancel).1 := by
  obtain ⟨heap, m_user, m_regWindow, logBtn, regBtn⟩ := s
  obtain ⟨enabled, regWindow⟩ := d
  obtain ⟨hlog, hreg, hallocated, hpointers⟩ := h
  refine ⟨hlog, hreg, hallocated, ?_⟩
  cases hpointers with
  | noWindow => exact .noWindow
  | shared hlogin => exact .shared hlogin
  | apart hlater hlogin hcell hpasswd => exact .apart hlater hlogin hcell hpasswd

/-- A new object for the login window is none that a registration window points to. -/
theorem Pointers.newUser {heap : List User} {m_user : Option Nat} {window : Option RegWindow}
    {dialog : Option RegDialog} (h : Pointers md5Hex heap m_user window dialog)
    (hallocated : ∀ a, m_user = some a → a < heap.length) {user : User} {passwd : QString}
    (hpasswd : user.passwd = md5Hex passwd) :
    Pointers md5Hex (heap ++ [user]) (some heap.length) window
      (dialog.map fun w => { w with lastLogin := some (user.userName, passwd) }) := by
  have hcell : (heap ++ [user])[heap.length]? = some user := by simp
  cases h with
  | noWindow => exact .noWindow
  | shared hlogin => exact .apart (hallocated _ hlogin) rfl hcell hpasswd
  | apart hlater hlogin _ _ =>
    exact .apart (hlater.trans (hallocated _ hlogin)) rfl hcell hpasswd

section Login

variable {name passwd : QString} (connfd : Int) (now : QString)

theorem login_step (henabled : s.logBtn = true) (hfilled : Filled name passwd) :
    (startUp md5Hex).step s (.login name passwd connfd now) =
      ((s.newUser { User.new with userName := name, passwd := md5Hex passwd }).posted connfd,
        .ok (sent connfd (credentials now .reqLogin
          { User.new with userName := name, passwd := md5Hex passwd }))) := by
  simp only [startUp, henabled, if_true, onLogin_of_filled md5Hex s connfd now hfilled,
    StartUp.called]

theorem login_step_of_not (hidle : ¬(s.logBtn = true ∧ Filled name passwd)) :
    (startUp md5Hex).step s (.login name passwd connfd now) = (s, .ok none) := by
  by_cases henabled : s.logBtn = true
  · have hfilled : ¬Filled name passwd := fun hfilled => hidle ⟨henabled, hfilled⟩
    simp only [startUp, henabled, if_true, onLogin_of_not_filled md5Hex s connfd now hfilled,
      StartUp.called]
  · simp only [startUp, if_neg henabled]

theorem Shows.login (h : Shows md5Hex s d) :
    Shows md5Hex ((startUp md5Hex).step s (.login name passwd connfd now)).1
      (dialogs.step d (.login name passwd connfd now)).1 := by
  by_cases hactive : s.logBtn = true ∧ Filled name passwd
  · obtain ⟨henabled, hfilled⟩ := hactive
    have hdialog : d.enabled = true := h.logBtn.symm.trans henabled
    rw [login_step connfd now henabled hfilled]
    simp only [dialogs, if_pos (And.intro hdialog hfilled)]
    constructor
    · simp [StartUp.posted, StartUp.newUser, henabled]
    · simp [StartUp.posted, StartUp.newUser, h.regBtn, hdialog]
    · intro a ha
      obtain rfl := Option.some.inj ha
      simp [StartUp.posted, StartUp.newUser]
    · exact h.pointers.newUser h.allocated rfl
  · rw [login_step_of_not connfd now hactive]
    have hdialog : ¬(d.enabled = true ∧ Filled name passwd) := by rwa [← h.logBtn]
    simp only [dialogs, if_neg hdialog]
    exact h

end Login

section Confirm

variable {name passwd passwd_re : QString} (connfd : Int) (now : QString)

theorem Pointers.window_of_dialog {heap : List User} {m_user : Option Nat}
    {regWindow : Option RegWindow} {dialog : RegDialog}
    (h : Pointers md5Hex heap m_user regWindow (some dialog)) :
    ∃ a, regWindow = some ⟨some a, dialog.shown⟩ := by
  cases h with
  | shared => exact ⟨_, rfl⟩
  | apart => exact ⟨_, rfl⟩

theorem Pointers.dialog_of_window {heap : List User} {m_user : Option Nat} {window : RegWindow}
    {regWindow : Option RegDialog} (h : Pointers md5Hex heap m_user (some window) regWindow) :
    ∃ dialog ∈ regWindow, dialog.shown = window.shown := by
  cases h with
  | shared => exact ⟨_, rfl, rfl⟩
  | apart => exact ⟨_, rfl, rfl⟩

/-- What the object of the login window holds when the registration form has been written: that
form, or the login form that was sent off after the window was made. -/
theorem Pointers.written {a : Nat} {shown : Bool} {dialog : RegDialog}
    (h : Pointers md5Hex s.heap s.m_user (some ⟨some a, shown⟩) (some dialog))
    (hallocated : ∀ a, s.m_user = some a → a < s.heap.length) :
    ∃ user, (s.written md5Hex a name passwd).user = some user ∧
      user.userName = (dialog.lastLogin.getD (name, passwd)).1 ∧
      user.passwd = md5Hex (dialog.lastLogin.getD (name, passwd)).2 := by
  cases h with
  | shared hlogin =>
    obtain ⟨user, hcell⟩ : ∃ user, s.heap[a]? = some user :=
      ⟨_, List.getElem?_eq_getElem (hallocated a hlogin)⟩
    refine ⟨{ user with userName := name, passwd := md5Hex passwd }, ?_, rfl, rfl⟩
    simp [StartUp.written, StartUp.user, hlogin, List.getElem?_modify, hcell]
  | apart hlater hlogin hcell hpasswd =>
    refine ⟨_, ?_, rfl, hpasswd⟩
    simp [StartUp.written, StartUp.user, hlogin, List.getElem?_modify, hcell, hlater.ne]

theorem confirm_step (h : Shows md5Hex s d) (hopen : ∃ window ∈ d.regWindow, window.shown)
    (hfilled : Filled name passwd) (hre : passwd.units = passwd_re.units) :
    ∃ window a user, d.regWindow = some window ∧ window.shown ∧
      user.userName = (window.lastLogin.getD (name, passwd)).1 ∧
      user.passwd = md5Hex (window.lastLogin.getD (name, passwd)).2 ∧
      (startUp md5Hex).step s (.confirm name passwd passwd_re connfd now) =
        ({ (s.written md5Hex a name passwd).posted connfd with m_regWindow := none },
          .ok (sent connfd (credentials now .reqRegist user))) := by
  obtain ⟨window, hwindow, hshown⟩ := hopen
  have hpointers := h.pointers
  rw [Option.mem_def.mp hwindow] at hpointers
  obtain ⟨a, hreg⟩ := hpointers.window_of_dialog
  rw [hreg] at hpointers
  obtain ⟨user, huser, hname, hpasswd⟩ := hpointers.written h.allocated
  refine ⟨window, a, user, hwindow, hshown, hname, hpasswd, ?_⟩
  have hcall := onConfirm_of_filled md5Hex s connfd now ⟨some a, window.shown⟩ hfilled hre rfl huser
  simp only [startUp, hreg, if_pos hshown, hcall, StartUp.called]

theorem confirm_step_of_not (h : Shows md5Hex s d)
    (hidle : ¬((∃ window ∈ d.regWindow, window.shown) ∧ Filled name passwd ∧
      passwd.units = passwd_re.units)) :
    (startUp md5Hex).step s (.confirm name passwd passwd_re connfd now) = (s, .ok none) := by
  have hpointers := h.pointers
  cases hreg : s.m_regWindow with
  | none => simp only [startUp, hreg]
  | some window =>
    rw [hreg] at hpointers
    obtain ⟨dialog, hdialog, hsame⟩ := hpointers.dialog_of_window
    by_cases hshown : window.shown = true
    · have hform : ¬(Filled name passwd ∧ passwd.units = passwd_re.units) :=
        fun hform => hidle ⟨⟨dialog, hdialog, hsame.trans hshown⟩, hform⟩
      simp only [startUp, hreg, hshown, if_true,
        onConfirm_of_not_filled md5Hex s connfd now window hform, StartUp.called]
    · simp only [startUp, hreg, if_neg hshown]

theorem Shows.confirm (h : Shows md5Hex s d) :
    Shows md5Hex ((startUp md5Hex).step s (.confirm name passwd passwd_re connfd now)).1
      (dialogs.step d (.confirm name passwd passwd_re connfd now)).1 := by
  by_cases hactive : (∃ window ∈ d.regWindow, window.shown) ∧ Filled name passwd ∧
      passwd.units = passwd_re.units
  · obtain ⟨window, a, user, -, -, -, -, hstep⟩ :=
      confirm_step connfd now h hactive.1 hactive.2.1 hactive.2.2
    rw [hstep]
    simp only [dialogs, if_pos hactive]
    constructor
    · simp [StartUp.posted, StartUp.written, h.logBtn]
    · simp [StartUp.posted, StartUp.written, h.regBtn]
    · intro b hb
      simpa [StartUp.posted, StartUp.written] using h.allocated b hb
    · exact .noWindow
  · rw [confirm_step_of_not connfd now h hactive]
    simp only [dialogs, if_neg hactive]
    exact h

end Confirm

theorem Shows.step (h : Shows md5Hex s d) (a : Action) :
    Shows md5Hex ((startUp md5Hex).step s a).1 (dialogs.step d a).1 := by
  cases a with
  | register => exact h.register
  | login name passwd connfd now => exact h.login connfd now
  | confirm name passwd passwd_re connfd now => exact h.confirm connfd now
  | cancel => exact h.cancel

theorem shows_new : Shows md5Hex StartUp.new Dialogs.new := by
  refine ⟨rfl, rfl, ?_, .noWindow⟩
  intro a ha
  cases ha

theorem shows_run (actions : List Action) :
    Shows md5Hex ((startUp md5Hex).run StartUp.new actions) (dialogs.run Dialogs.new actions) :=
  Machine.run_related (fun _ _ a h => h.step a) shows_new actions

end Steps

/-- No click of a run reads or writes through a null pointer. -/
theorem start_up_never_faults (md5Hex : QString → QString) (actions : List Action) (a : Action) :
    ∃ msg, ((startUp md5Hex).step ((startUp md5Hex).run StartUp.new actions) a).2 = .ok msg := by
  have hshows := @shows_run md5Hex actions
  generalize (startUp md5Hex).run StartUp.new actions = s at hshows
  generalize dialogs.run Dialogs.new actions = d at hshows
  cases a with
  | register => exact ⟨none, rfl⟩
  | login name passwd connfd now =>
    by_cases hactive : s.logBtn = true ∧ Filled name passwd
    · rw [login_step connfd now hactive.1 hactive.2]
      exact ⟨_, rfl⟩
    · rw [login_step_of_not connfd now hactive]
      exact ⟨none, rfl⟩
  | confirm name passwd passwd_re connfd now =>
    by_cases hactive : (∃ window ∈ d.regWindow, window.shown) ∧ Filled name passwd ∧
        passwd.units = passwd_re.units
    · obtain ⟨window, b, user, -, -, -, -, hstep⟩ :=
        confirm_step connfd now hshows hactive.1 hactive.2.1 hactive.2.2
      rw [hstep]
      exact ⟨_, rfl⟩
    · rw [confirm_step_of_not connfd now hshows hactive]
      exact ⟨none, rfl⟩
  | cancel => exact ⟨none, rfl⟩

/-! ### The credentials of a run -/

/-- A click on Confirm that posts a message comes before any login form that is sent off after the
registration window was made, or the last such form has the same name and password hash. -/
def Undiverted (md5Hex : QString → QString) (d : Dialogs) : Action → Prop
  | .confirm name passwd passwd_re connfd _ =>
    0 ≤ connfd → Filled name passwd → passwd.units = passwd_re.units →
      ∀ window ∈ d.regWindow, window.shown → ∀ login ∈ window.lastLogin,
        login.1 = name ∧ md5Hex login.2 = md5Hex passwd
  | .register | .login _ _ _ _ | .cancel => True

section Credentials

variable {md5Hex : QString → QString} {s : StartUp} {d : Dialogs}

theorem sent_eq_some_iff {connfd : Int} {msg msg' : ChatyMessage} :
    sent connfd msg = some msg' ↔ 0 ≤ connfd ∧ msg = msg' := by
  unfold sent
  by_cases hfailed : connfd < 0
  · simp [hfailed]
  · simp [hfailed, not_lt.mp hfailed]

theorem carries_credentials_iff (now : QString) (type : RequestType) (user : User)
    (name passwd : QString) :
    Carries (credentials now type user) type name passwd ↔
      user.userName = name ∧ user.passwd = passwd := by
  constructor
  · rintro ⟨-, user', hbody, hname, hpasswd⟩
    cases hbody
    exact ⟨hname, hpasswd⟩
  · rintro ⟨hname, hpasswd⟩
    exact ⟨rfl, user, rfl, hname, hpasswd⟩

theorem entered_login (name passwd : QString) (connfd : Int) (now : QString) {msg : ChatyMessage}
    (h : ((startUp md5Hex).step s (.login name passwd connfd now)).2 = .ok (some msg)) :
    Entered md5Hex msg (.login name passwd connfd now) := by
  by_cases hactive : s.logBtn = true ∧ Filled name passwd
  · rw [login_step connfd now hactive.1 hactive.2] at h
    obtain ⟨-, rfl⟩ := sent_eq_some_iff.mp (Except.ok.inj h)
    exact (carries_credentials_iff ..).mpr ⟨rfl, rfl⟩
  · rw [login_step_of_not connfd now hactive] at h
    cases h

theorem entered_confirm_iff (h : Shows md5Hex s d) (name passwd passwd_re : QString) (connfd : Int)
    (now : QString) :
    (∀ msg, ((startUp md5Hex).step s (.confirm name passwd passwd_re connfd now)).2 =
        .ok (some msg) → Entered md5Hex msg (.confirm name passwd passwd_re connfd now)) ↔
      Undiverted md5Hex d (.confirm name passwd passwd_re connfd now) := by
  by_cases hactive : (∃ window ∈ d.regWindow, window.shown) ∧ Filled name passwd ∧
      passwd.units = passwd_re.units
  · obtain ⟨window, a, user, hwindow, hshown, hname, hpasswd, hstep⟩ :=
      confirm_step connfd now h hactive.1 hactive.2.1 hactive.2.2
    simp only [hstep, Except.ok.injEq, sent_eq_some_iff, Entered, Undiverted, hwindow,
      Option.mem_def, Option.some.injEq]
    constructor
    · rintro hentered hconnfd - - window' rfl - login hlogin
      have hcarries := hentered _ ⟨hconnfd, rfl⟩
      rw [carries_credentials_iff, hname, hpasswd, hlogin] at hcarries
      exact hcarries
    · rintro hundiverted msg ⟨hconnfd, rfl⟩
      rw [carries_credentials_iff, hname, hpasswd]
      cases hlogin : window.lastLogin with
      | none => exact ⟨rfl, rfl⟩
      | some login =>
        exact hundiverted hconnfd hactive.2.1 hactive.2.2 window rfl hshown login hlogin
  · rw [confirm_step_of_not connfd now h hactive]
    constructor
    · intro _ _ hfilled hre window hwindow hshown
      exact absurd ⟨⟨window, hwindow, hshown⟩, hfilled, hre⟩ hactive
    · intro _ msg hmsg
      cases hmsg

theorem entered_iff (h : Shows md5Hex s d) (a : Action) :
    (∀ msg, ((startUp md5Hex).step s a).2 = .ok (some msg) → Entered md5Hex msg a) ↔
      Undiverted md5Hex d a := by
  cases a with
  | register => exact ⟨fun _ => trivial, fun _ msg hmsg => nomatch hmsg⟩
  | login name passwd connfd now =>
    exact ⟨fun _ => trivial, fun _ msg hmsg => entered_login name passwd connfd now hmsg⟩
  | confirm name passwd passwd_re connfd now =>
    exact entered_confirm_iff h name passwd passwd_re connfd now
  | cancel => exact ⟨fun _ => trivial, fun _ msg hmsg => nomatch hmsg⟩

end Credentials

/-- The messages of a run carry what was entered exactly when no posted registration was diverted by
a login. -/
theorem right_credentials_iff (md5Hex : QString → QString) (actions : List Action) :
    RightCredentials md5Hex actions ↔
      ∀ before a rest, actions = before ++ a :: rest →
        Undiverted md5Hex (dialogs.run Dialogs.new before) a := by
  constructor
  · intro hright before a rest hsplit
    apply (entered_iff (shows_run before) a).mp
    intro msg hmsg
    exact hright before a rest msg hsplit hmsg
  · intro hundiverted before a rest msg hsplit hmsg
    have hentered := (entered_iff (shows_run before) a).mpr (hundiverted before a rest hsplit)
    exact hentered msg hmsg

/-! ### A login while the registration window is open -/

def loginThenConfirm : List Action :=
  [.register, .login (.ofLiteral "bob") (.ofLiteral "x") 3 .null,
    .confirm (.ofLiteral "alice") (.ofLiteral "y") (.ofLiteral "y") 3 .null]

/-- The hash, at the two passwords. -/
def md5HexOfForms (text : QString) : QString :=
  if text = .ofLiteral "x" then .ofLiteral "9dd4e461268c8034f5c8564e155c67a6"
  else .ofLiteral "415290769594460e2e485922904f345d"

/-- The registration of alice is sent with the form of bob. -/
theorem login_diverts_registration : ¬RightCredentials md5HexOfForms loginThenConfirm := by
  intro hright
  have hentered := hright _ _ [] _ (show loginThenConfirm = [_, _] ++ [_] from rfl) rfl
  obtain ⟨-, user, hbody, hname, -⟩ := hentered
  cases hbody
  have hne : QString.ofLiteral "bob" ≠ QString.ofLiteral "alice" := by decide
  exact hne hname

end XChaty.Client
