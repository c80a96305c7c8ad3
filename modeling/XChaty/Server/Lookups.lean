import Mathlib.Logic.Function.Basic
import XChaty.ProofKit.Machine
import XChaty.Server.SqlHelper

/-! Lookups of users on the worker threads.  Each call of `GetUser` makes three steps on the one
`SqlHelper`: `Open`, `Query`, and `Close`.  A second `Open` before the first `Close` overwrites the
only pointer to the first connection, which is then never closed; so the lookups leave each other
alone exactly when they run one after the other. -/

namespace XChaty.Server

open Qt Protoc ProofKit

inductive LookupStep
  | openDb
  | query
  | close
deriving DecidableEq, Repr

def lookupSteps : List LookupStep := [.openDb, .query, .close]

/-- The handle of the helper, and the steps that each numbered call has left. -/
structure Lookups where
  handle : Handle
  left : Nat → List LookupStep

def Lookups.new : Lookups :=
  { handle := { m_db := none, opened := [], closed := [] }, left := fun _ => lookupSteps }

/-- The next step of the call with the number `call`, on the database in `file`.  The output of a
`Query` is the handle that it runs on. -/
def lookups (file : QString) : Machine Lookups Nat (Option Handle) where
  step s call :=
    match s.left call with
    | [] => (s, none)
    | .openDb :: rest =>
      ({ handle := s.handle.openFile file, left := Function.update s.left call rest }, none)
    | .query :: rest => ({ s with left := Function.update s.left call rest }, some s.handle)
    | .close :: rest =>
      ({ handle := s.handle.close, left := Function.update s.left call rest }, none)

/-- Every `Query` runs on a connection that is open, and at the end every connection that was
opened has been closed once. -/
structure Undisturbed (file : QString) (s : Lookups) (schedule : List Nat) : Prop where
  query : ∀ h, some h ∈ (lookups file).outputs s schedule → ∃ conn, h.m_db = some conn ∧ h.Live conn
  closed : ∀ conn ∈ ((lookups file).run s schedule).handle.opened,
    ((lookups file).run s schedule).handle.closed.count conn = 1

def Complete (schedule : List Nat) : Prop := ∀ call ∈ schedule, schedule.count call = 3

/-- The calls make their steps one call after the other. -/
def Serial (schedule : List Nat) : Prop :=
  ∃ calls : List Nat, calls.Nodup ∧ schedule = calls.flatMap fun call => [call, call, call]

/-! ### One lookup alone -/

structure Clean (h : Handle) : Prop where
  m_db : h.m_db = none
  once : ∀ conn ∈ h.opened, h.closed.count conn = 1
  numbered : ∀ conn ∈ h.opened, conn.serial < h.opened.length
  opened : ∀ conn ∈ h.closed, conn ∈ h.opened

section Steps

variable (file : QString) {s : Lookups} {call : Nat}

theorem step_openDb (h : s.left call = lookupSteps) :
    (lookups file).step s call =
      ({ handle := s.handle.openFile file
         left := Function.update s.left call [.query, .close] }, none) := by
  simp only [lookups, h, lookupSteps]

theorem step_query (h : s.left call = [.query, .close]) :
    (lookups file).step s call =
      ({ s with left := Function.update s.left call [.close] }, some s.handle) := by
  simp only [lookups, h]

theorem step_close (h : s.left call = [.close]) :
    (lookups file).step s call =
      ({ handle := s.handle.close, left := Function.update s.left call [] }, none) := by
  simp only [lookups, h]

end Steps

theorem Clean.fresh {h : Handle} (hclean : Clean h) (file : QString) :
    ⟨h.opened.length, file⟩ ∉ h.opened :=
  fun hmem => Nat.lt_irrefl _ (hclean.numbered _ hmem)

theorem Clean.live_openFile {h : Handle} (hclean : Clean h) (file : QString) :
    (h.openFile file).Live ⟨h.opened.length, file⟩ :=
  ⟨List.mem_append_right h.opened List.mem_cons_self,
    fun hclosed => hclean.fresh file (hclean.opened _ hclosed)⟩

theorem Clean.openFile_close {h : Handle} (hclean : Clean h) (file : QString) :
    Clean (h.openFile file).close := by
  have hfresh := hclean.fresh file
  have hunclosed : (⟨h.opened.length, file⟩ : Connection) ∉ h.closed :=
    fun hclosed => hfresh (hclean.opened _ hclosed)
  rw [Handle.openFile_close]
  constructor
  · rfl
  · intro conn hconn
    rw [List.count_append]
    rcases List.mem_append.mp hconn with hold | hnew
    · have hne : conn ≠ ⟨h.opened.length, file⟩ := fun heq => hfresh (heq ▸ hold)
      rw [hclean.once conn hold, List.count_singleton, if_neg (by simpa using hne.symm)]
    · obtain rfl := List.mem_singleton.mp hnew
      rw [List.count_eq_zero_of_not_mem hunclosed, List.count_singleton_self]
  · intro conn hconn
    rw [List.length_append, List.length_singleton]
    rcases List.mem_append.mp hconn with hold | hnew
    · have := hclean.numbered conn hold
      omega
    · obtain rfl := List.mem_singleton.mp hnew
      exact Nat.lt_succ_self _
  · intro conn hconn
    rcases List.mem_append.mp hconn with hold | hnew
    · exact List.mem_append_left _ (hclean.opened conn hold)
    · exact List.mem_append_right _ hnew

def Lookups.afterCall (s : Lookups) (file : QString) (call : Nat) : Lookups :=
  { handle := (s.handle.openFile file).close, left := Function.update s.left call [] }

theorem run_triple (file : QString) {s : Lookups} {call : Nat} (h : s.left call = lookupSteps)
    (schedule : List Nat) :
    (lookups file).run s (call :: call :: call :: schedule) =
        (lookups file).run (s.afterCall file call) schedule ∧
      (lookups file).outputs s (call :: call :: call :: schedule) =
        none :: some (s.handle.openFile file) :: none ::
          (lookups file).outputs (s.afterCall file call) schedule := by
  have hopen := step_openDb file h
  have hquery := step_query file (s := ⟨s.handle.openFile file,
    Function.update s.left call [.query, .close]⟩) (Function.update_self call _ _)
  have hclose := step_close file (s := ⟨s.handle.openFile file,
    Function.update s.left call [.close]⟩) (Function.update_self call _ _)
  rw [Function.update_idem] at hquery hclose
  simp only [Machine.run_cons, Machine.outputs_cons, hopen, hquery, hclose, Lookups.afterCall,
    and_self]

/-- A call of `GetUser` that returns leaves the handle as its three steps do. -/
theorem getUserByName_handle {Db : Type} {host : Host Db} {helper helper' : SqlHelper Db}
    {name : QString} {pUser : Option User} {s : Lookups} {call : Nat}
    (h : getUserByName host helper name = .ok (helper', pUser)) (hs : s.handle = helper.handle)
    (hleft : s.left call = lookupSteps) :
    ((lookups (host.getDataBasePath chatyDbName)).run s [call, call, call]).handle =
      helper'.handle := by
  rw [(run_triple _ hleft []).1, Machine.run_nil, Lookups.afterCall, hs]
  cases hrows : (lookup host helper name).rows with
  | nil =>
    rw [getUserByName_of_no_rows hrows] at h
    cases h
    rw [afterLookup, SqlHelper.executed]
    split <;> rfl
  | cons row rows =>
    rw [getUserByName_of_row hrows] at h
    cases h

theorem undisturbed_of_serial {file : QString} {calls : List Nat} {s : Lookups}
    (hclean : Clean s.handle) (hnodup : calls.Nodup)
    (hleft : ∀ call ∈ calls, s.left call = lookupSteps) :
    Undisturbed file s (calls.flatMap fun call => [call, call, call]) := by
  induction calls generalizing s with
  | nil => exact ⟨fun h hmem => absurd hmem (by simp), hclean.once⟩
  | cons call calls ih =>
    obtain ⟨hcall, hcalls⟩ := List.nodup_cons.mp hnodup
    obtain ⟨hrun, houtputs⟩ := run_triple file (hleft call List.mem_cons_self)
      (calls.flatMap fun call => [call, call, call])
    have hrest := ih (s := s.afterCall file call) (hclean.openFile_close file) hcalls
      fun c hc => by
        have hne : c ≠ call := fun heq => hcall (heq ▸ hc)
        exact (Function.update_of_ne hne _ _).trans (hleft c (List.mem_cons_of_mem call hc))
    have hsplit : (call :: calls).flatMap (fun call => [call, call, call]) =
        call :: call :: call :: calls.flatMap fun call => [call, call, call] := rfl
    rw [hsplit]
    constructor
    · intro h hmem
      rw [houtputs] at hmem
      simp only [List.mem_cons, Option.some.injEq, reduceCtorEq, false_or] at hmem
      rcases hmem with rfl | hmem
      · exact ⟨_, rfl, hclean.live_openFile file⟩
      · exact hrest.query h hmem
    · rw [hrun]
      exact hrest.closed

/-! ### Lookups that overlap -/

/-- The connection was opened, has not been closed, and nothing points to it any more. -/
structure Lost (conn : Connection) (h : Handle) : Prop where
  opened : conn ∈ h.opened
  unclosed : conn ∉ h.closed
  m_db : h.m_db ≠ some conn
  old : conn.serial < h.opened.length

theorem lost_openFile {conn : Connection} {h : Handle} (file : QString) (hlive : h.Live conn)
    (hold : conn.serial < h.opened.length) : Lost conn (h.openFile file) := by
  constructor
  · exact List.mem_append_left _ hlive.1
  · exact hlive.2
  · intro heq
    have hserial : h.opened.length = conn.serial := congrArg Connection.serial (Option.some.inj heq)
    omega
  · rw [Handle.openFile_opened, List.length_append]
    omega

theorem Lost.close {conn : Connection} {h : Handle} (hlost : Lost conn h) :
    Lost conn h.close := by
  unfold Handle.close
  split
  · rename_i other hother
    have hne : conn ≠ other := fun heq => hlost.m_db (heq ▸ hother)
    refine ⟨hlost.opened, ?_, by simp, hlost.old⟩
    intro hclosed
    rcases List.mem_append.mp hclosed with hold | hnew
    · exact hlost.unclosed hold
    · exact hne (List.mem_singleton.mp hnew)
  · exact ⟨hlost.opened, hlost.unclosed, by simp, hlost.old⟩

theorem Lost.run (file : QString) {conn : Connection} {s : Lookups} (hlost : Lost conn s.handle)
    (schedule : List Nat) : Lost conn ((lookups file).run s schedule).handle := by
  refine Machine.run_invariant (P := fun s : Lookups => Lost conn s.handle) hlost
    fun s call _ h => ?_
  simp only [lookups]
  split
  · exact h
  · exact lost_openFile file ⟨h.opened, h.unclosed⟩ h.old
  · exact h
  · exact h.close

/-- Between its `Open` and its `Close` a lookup is not disturbed only if it makes the next step. -/
theorem next_step_of_closed {file : QString} {s : Lookups} {conn : Connection}
    {call other : Nat} {schedule : List Nat} (hlive : s.handle.Live conn)
    (hold : conn.serial < s.handle.opened.length)
    (hothers : other ≠ call → s.left other = lookupSteps)
    (hclosed : ∀ conn ∈ ((lookups file).run s (other :: schedule)).handle.opened,
      ((lookups file).run s (other :: schedule)).handle.closed.count conn = 1) :
    other = call := by
  by_contra hne
  rw [Machine.run_cons, step_openDb file (hothers hne)] at hclosed
  have hlost := Lost.run file (lost_openFile file hlive hold)
    (s := ⟨s.handle.openFile file, Function.update s.left other [.query, .close]⟩) schedule
  have hzero := List.count_eq_zero_of_not_mem hlost.unclosed
  rw [hclosed conn hlost.opened] at hzero
  exact absurd hzero (by decide)

/-- When every connection is closed in the end, the first call makes its steps in a row. -/
theorem triple_of_closed {file : QString} {call : Nat} {schedule : List Nat} {s : Lookups}
    (hclean : Clean s.handle) (hcount : (call :: schedule).count call = 3)
    (hleft : ∀ c ∈ call :: schedule, s.left c = lookupSteps)
    (hclosed : ∀ conn ∈ ((lookups file).run s (call :: schedule)).handle.opened,
      ((lookups file).run s (call :: schedule)).handle.closed.count conn = 1) :
    ∃ rest, schedule = call :: call :: rest := by
  have hlength : 3 ≤ (call :: schedule).length := hcount ▸ List.count_le_length
  match schedule with
  | [] | [_] => simp at hlength
  | second :: third :: rest =>
    have hlive := hclean.live_openFile file
    have hold : s.handle.opened.length < (s.handle.openFile file).opened.length := by
      rw [Handle.openFile_opened, List.length_append, List.length_singleton]
      exact Nat.lt_succ_self _
    rw [Machine.run_cons, step_openDb file (hleft call List.mem_cons_self)] at hclosed
    have hsecond : second = call := next_step_of_closed hlive hold
      (fun hne => (Function.update_of_ne hne _ _).trans (hleft second (by simp))) hclosed
    subst hsecond
    rw [Machine.run_cons, step_query file (Function.update_self ..)] at hclosed
    have hthird : third = second := next_step_of_closed hlive hold
      (fun hne => by
        simp only [Function.update_of_ne hne]
        exact hleft third (by simp)) hclosed
    exact ⟨rest, by rw [hthird]⟩

theorem serial_of_closed {file : QString} {schedule : List Nat} {s : Lookups}
    (hclean : Clean s.handle) (hcomplete : Complete schedule)
    (hleft : ∀ call ∈ schedule, s.left call = lookupSteps)
    (hclosed : ∀ conn ∈ ((lookups file).run s schedule).handle.opened,
      ((lookups file).run s schedule).handle.closed.count conn = 1) : Serial schedule := by
  induction hn : schedule.length using Nat.strongRecOn generalizing schedule s with
  | ind n ih =>
    cases schedule with
    | nil => exact ⟨[], List.nodup_nil, rfl⟩
    | cons call schedule =>
      have hcount := hcomplete call List.mem_cons_self
      obtain ⟨rest, rfl⟩ := triple_of_closed hclean hcount hleft hclosed
      have hfinished : call ∉ rest := by
        simp only [List.count_cons_self] at hcount
        exact List.count_eq_zero.mp (by omega)
      have hother : ∀ c ∈ rest, c ≠ call := fun c hc heq => hfinished (heq ▸ hc)
      rw [(run_triple file (hleft call List.mem_cons_self) rest).1] at hclosed
      obtain ⟨calls, hnodup, hrest⟩ := ih rest.length
        (by simp only [← hn, List.length_cons]; omega)
        (s := s.afterCall file call) (hclean.openFile_close file)
        (fun c hc => by
          have hc3 := hcomplete c (by simp [hc])
          simpa [List.count_cons, (hother c hc).symm] using hc3)
        (fun c hc => (Function.update_of_ne (hother c hc) _ _).trans (hleft c (by simp [hc])))
        hclosed rfl
      refine ⟨call :: calls, List.nodup_cons.mpr ⟨fun hmem => ?_, hnodup⟩, by rw [hrest]; rfl⟩
      exact hfinished (by rw [hrest]; exact List.mem_flatMap.mpr ⟨call, hmem, by simp⟩)

theorem clean_new : Clean Lookups.new.handle :=
  ⟨rfl, by simp [Lookups.new], by simp [Lookups.new], by simp [Lookups.new]⟩

/-- Lookups leave each other alone exactly when they run one after the other. -/
theorem undisturbed_iff_serial (file : QString) {schedule : List Nat}
    (hcomplete : Complete schedule) :
    Undisturbed file Lookups.new schedule ↔ Serial schedule := by
  constructor
  · intro hundisturbed
    exact serial_of_closed clean_new hcomplete (fun _ _ => rfl) hundisturbed.closed
  · rintro ⟨calls, hnodup, rfl⟩
    exact undisturbed_of_serial clean_new hnodup fun _ _ => rfl

theorem undisturbed_iff_serial_two :
    Undisturbed chatyDbName Lookups.new [0, 0, 0, 1, 1, 1] ↔ Serial [0, 0, 0, 1, 1, 1] :=
  undisturbed_iff_serial chatyDbName (by unfold Complete; decide)

/-- The second lookup opens before the first has asked: the first asks on the connection of the
second and closes it, and the second asks on none. -/
theorem overlap_disturbs :
    Complete [0, 1, 0, 0, 1, 1] ∧ ¬Undisturbed chatyDbName Lookups.new [0, 1, 0, 0, 1, 1] := by
  refine ⟨by unfold Complete; decide, fun hundisturbed => ?_⟩
  have hleaked := hundisturbed.closed ⟨0, chatyDbName⟩ (by decide)
  exact absurd hleaked (by decide)

end XChaty.Server
