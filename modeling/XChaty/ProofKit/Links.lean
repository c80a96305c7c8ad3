import Mathlib.Logic.Function.Basic
import XChaty.ProofKit.History

/-! Links that keep the order of what is sent on them, one queue for each, with any number of
senders and receivers in any interleaving.  On each link, what has been received and what is on its
way are together what was sent.  Links that carry parcels carry what is in them (`Carries`). -/

namespace XChaty.ProofKit

universe u v

inductive LinkMove (κ : Type u) (α : Type v)
  | send (link : κ) (item : α)
  | receive (link : κ)
deriving DecidableEq, Repr

inductive LinkNote (κ : Type u) (α : Type v)
  | sent (link : κ) (item : α)
  | received (link : κ) (item : α)
deriving DecidableEq, Repr

variable {κ : Type u} {α : Type v} [DecidableEq κ]

def links : Machine (κ → List α) (LinkMove κ α) (List (LinkNote κ α)) where
  step queues
    | .send link item =>
      (Function.update queues link (queues link ++ [item]), [.sent link item])
    | .receive link =>
      match queues link with
      | [] => (queues, [])
      | item :: queue => (Function.update queues link queue, [.received link item])

def LinkNote.sentOn (link : κ) : LinkNote κ α → List α
  | sent link' item => if link' = link then [item] else []
  | received _ _ => []

def LinkNote.receivedOn (link : κ) : LinkNote κ α → List α
  | sent _ _ => []
  | received link' item => if link' = link then [item] else []

theorem links_send (queues : κ → List α) (link : κ) (item : α) :
    links.step queues (.send link item) =
      (Function.update queues link (queues link ++ [item]), [.sent link item]) := rfl

theorem links_receive_of_cons {queues : κ → List α} {link : κ} {item : α} {queue : List α}
    (h : queues link = item :: queue) :
    links.step queues (.receive link) =
      (Function.update queues link queue, [.received link item]) := by
  simp only [links, h]

theorem links_receive_of_nil {queues : κ → List α} {link : κ} (h : queues link = []) :
    links.step queues (.receive link) = (queues, []) := by
  simp only [links, h]

theorem links_step_account (link : κ) (queues : κ → List α) (move : LinkMove κ α) :
    (links.step queues move).2.flatMap (LinkNote.receivedOn link) ++
        (links.step queues move).1 link =
      queues link ++ (links.step queues move).2.flatMap (LinkNote.sentOn link) := by
  cases move with
  | send link' item =>
    rw [links_send]
    by_cases hlink : link' = link
    · subst hlink
      simp [LinkNote.receivedOn, LinkNote.sentOn]
    · simp [LinkNote.receivedOn, LinkNote.sentOn, hlink, Function.update_of_ne (Ne.symm hlink)]
  | receive link' =>
    cases hqueue : queues link' with
    | nil =>
      rw [links_receive_of_nil hqueue]
      exact (List.append_nil _).symm
    | cons item queue =>
      rw [links_receive_of_cons hqueue]
      by_cases hlink : link' = link
      · subst hlink
        simp [LinkNote.receivedOn, LinkNote.sentOn, hqueue]
      · simp [LinkNote.receivedOn, LinkNote.sentOn, hlink, Function.update_of_ne (Ne.symm hlink)]

/-- Nothing is lost, doubled, invented or overtaken on a link. -/
theorem links_fifo (link : κ) (queues : κ → List α) (moves : List (LinkMove κ α)) :
    (links.log queues moves).flatMap (LinkNote.receivedOn link) ++ links.run queues moves link =
      queues link ++ (links.log queues moves).flatMap (LinkNote.sentOn link) :=
  Machine.run_account (I := fun _ => True) (LinkNote.receivedOn link) (LinkNote.sentOn link)
    (fun queues => queues link) (fun _ _ _ => trivial)
    (fun queues move _ => links_step_account link queues move) trivial moves

/-! ### Several items at once -/

/-- The items that come with a link. -/
def itemsOn (link : κ) (items : List (κ × α)) : List α :=
  (items.filter fun item => item.1 = link).map Prod.snd

theorem itemsOn_append (link : κ) (items more : List (κ × α)) :
    itemsOn link (items ++ more) = itemsOn link items ++ itemsOn link more := by
  rw [itemsOn, List.filter_append, List.map_append, itemsOn, itemsOn]

/-- The queues after items have been put on them. -/
def put (queues : κ → List α) (items : List (κ × α)) : κ → List α := fun link =>
  queues link ++ itemsOn link items

@[simp] theorem put_nil (queues : κ → List α) : put queues [] = queues :=
  funext fun link => List.append_nil (queues link)

theorem put_cons (queues : κ → List α) (item : κ × α) (items : List (κ × α)) :
    put queues (item :: items) = put (put queues [item]) items := by
  funext link
  rw [put, put, put, List.append_assoc, ← itemsOn_append]
  rfl

theorem put_singleton (queues : κ → List α) (link : κ) (item : α) :
    put queues [(link, item)] = Function.update queues link (queues link ++ [item]) := by
  funext link'
  by_cases hlink : link = link'
  · subst hlink
    simp [put, itemsOn]
  · simp [put, itemsOn, hlink, Function.update_of_ne (Ne.symm hlink)]

def sends (items : List (κ × α)) : List (LinkMove κ α) := items.map fun item => .send item.1 item.2

def allSent (items : List (κ × α)) : List (LinkNote κ α) := items.map fun item => .sent item.1 item.2

def allReceived (items : List (κ × α)) : List (LinkNote κ α) :=
  items.map fun item => .received item.1 item.2

theorem links_sends (queues : κ → List α) (items : List (κ × α)) :
    links.run queues (sends items) = put queues items ∧
      links.log queues (sends items) = allSent items := by
  induction items generalizing queues with
  | nil => exact ⟨(put_nil queues).symm, rfl⟩
  | cons item items ih =>
    obtain ⟨hrun, hlog⟩ := ih (put queues [item])
    rw [put_cons queues item items, sends, List.map_cons, Machine.run_cons, Machine.log_cons,
      links_send, ← put_singleton]
    exact ⟨hrun, congrArg (LinkNote.sent item.1 item.2 :: ·) hlog⟩

theorem links_receives {queues : κ → List α} {link : κ} {items queue : List α}
    (h : queues link = items ++ queue) :
    links.run queues (items.map fun _ => .receive link) = Function.update queues link queue ∧
      links.log queues (items.map fun _ => .receive link) = items.map (.received link) := by
  induction items generalizing queues with
  | nil => exact ⟨(Function.update_eq_self_iff.mpr h.symm).symm, rfl⟩
  | cons item items ih =>
    obtain ⟨hrun, hlog⟩ := @ih (Function.update queues link (items ++ queue))
      (Function.update_self ..)
    rw [Function.update_idem] at hrun
    rw [List.map_cons, Machine.run_cons, Machine.log_cons, links_receive_of_cons h]
    exact ⟨hrun, congrArg (LinkNote.received link item :: ·) hlog⟩

theorem sentOn_allSent (link : κ) (items : List (κ × α)) :
    (allSent items).flatMap (LinkNote.sentOn link) = itemsOn link items := by
  induction items with
  | nil => rfl
  | cons item items ih =>
    rw [allSent, List.map_cons, List.flatMap_cons, ← allSent, ih, LinkNote.sentOn]
    by_cases hlink : item.1 = link
    · simp [itemsOn, hlink]
    · simp [itemsOn, hlink]

theorem receivedOn_allReceived (link : κ) (items : List (κ × α)) :
    (allReceived items).flatMap (LinkNote.receivedOn link) = itemsOn link items := by
  induction items with
  | nil => rfl
  | cons item items ih =>
    rw [allReceived, List.map_cons, List.flatMap_cons, ← allReceived, ih, LinkNote.receivedOn]
    by_cases hlink : item.1 = link
    · simp [itemsOn, hlink]
    · simp [itemsOn, hlink]

@[simp] theorem sentOn_allReceived (link : κ) (items : List (κ × α)) :
    (allReceived items).flatMap (LinkNote.sentOn link) = [] :=
  List.flatMap_eq_nil_iff.mpr fun note hnote => by
    obtain ⟨item, -, rfl⟩ := List.mem_map.mp hnote
    rfl

@[simp] theorem receivedOn_allSent (link : κ) (items : List (κ × α)) :
    (allSent items).flatMap (LinkNote.receivedOn link) = [] :=
  List.flatMap_eq_nil_iff.mpr fun note hnote => by
    obtain ⟨item, -, rfl⟩ := List.mem_map.mp hnote
    rfl

/-! ### Parcels -/

section Parcels

universe w x

variable {κ' : Type w} {β : Type x} (name : κ → κ') (parts : κ' → α → List β)

/-- What is in parcels, each with the other name of its link. -/
def unpack (parcels : List (κ × α)) : List (κ' × β) :=
  parcels.flatMap fun parcel => (parts (name parcel.1) parcel.2).map (name parcel.1, ·)

/-- The links `items`, under other names, hold what is in the parcels on the links `queues`. -/
def Carries (queues : κ → List α) (items : κ' → List β) : Prop :=
  ∀ link, items (name link) = (queues link).flatMap (parts (name link))

variable {name parts} {queues : κ → List α} {items : κ' → List β}

omit [DecidableEq κ] in
theorem unpack_append (parcels more : List (κ × α)) :
    unpack name parts (parcels ++ more) = unpack name parts parcels ++ unpack name parts more :=
  List.flatMap_append

/-- Other parcels with the same in them. -/
theorem Carries.repack (h : Carries name parts queues items) {link : κ} {parcels : List α}
    (hsame : parcels.flatMap (parts (name link)) = (queues link).flatMap (parts (name link))) :
    Carries name parts (Function.update queues link parcels) items := by
  intro link'
  by_cases hlink : link' = link
  · subst hlink
    rw [Function.update_self, hsame]
    exact h link'
  · rw [Function.update_of_ne hlink]
    exact h link'

variable [DecidableEq κ']

theorem itemsOn_unpack (hname : Function.Injective name) (link : κ) (parcels : List (κ × α)) :
    itemsOn (name link) (unpack name parts parcels) =
      (itemsOn link parcels).flatMap (parts (name link)) := by
  induction parcels with
  | nil => rfl
  | cons parcel parcels ih =>
    obtain ⟨link', parcel⟩ := parcel
    rw [unpack, List.flatMap_cons, itemsOn_append, ← unpack, ih]
    by_cases hlink : link' = link
    · subst hlink
      simp [itemsOn, List.filter_map, Function.comp_def]
    · have hother : name link' ≠ name link := fun heq => hlink (hname heq)
      simp [itemsOn, List.filter_map, Function.comp_def, hlink, hother]

/-- Parcels that are put on links are sendings of what is in them. -/
theorem Carries.sends (h : Carries name parts queues items) (hname : Function.Injective name)
    (parcels : List (κ × α)) :
    Carries name parts (put queues parcels)
        (links.run items (ProofKit.sends (unpack name parts parcels))) ∧
      links.log items (ProofKit.sends (unpack name parts parcels)) =
        allSent (unpack name parts parcels) := by
  obtain ⟨hrun, hlog⟩ := links_sends items (unpack name parts parcels)
  refine ⟨fun link => ?_, hlog⟩
  rw [hrun, put, put, List.flatMap_append, ← h link, itemsOn_unpack hname]

/-- A parcel that is taken from a link is the receipt of what is in it. -/
theorem Carries.receives (h : Carries name parts queues items) (hname : Function.Injective name)
    {link : κ} {parcel : α} {rest : List α} (hqueue : queues link = parcel :: rest) :
    Carries name parts (Function.update queues link rest) (links.run items
        ((parts (name link) parcel).map fun _ => .receive (name link))) ∧
      links.log items ((parts (name link) parcel).map fun _ => .receive (name link)) =
        (parts (name link) parcel).map (.received (name link)) := by
  have hitems := h link
  rw [hqueue, List.flatMap_cons] at hitems
  obtain ⟨hrun, hlog⟩ := links_receives hitems
  refine ⟨fun link' => ?_, hlog⟩
  rw [hrun]
  by_cases hlink : link' = link
  · subst hlink
    rw [Function.update_self, Function.update_self]
  · have hother : name link' ≠ name link := fun heq => hlink (hname heq)
    rw [Function.update_of_ne hlink, Function.update_of_ne hother]
    exact h link'

end Parcels

end XChaty.ProofKit
