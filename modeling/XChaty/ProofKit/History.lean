import Mathlib.Data.List.Induction
import XChaty.ProofKit.Machine

/-! Machines whose steps answer with a list of notes.  `log` is all that a run has noted;
`run_history` carries a property of the inputs, the state and the notes so far, and `run_account` is
the balance of what is taken out, what is put in and what a state holds. -/

namespace XChaty.ProofKit.Machine

universe u v w x

variable {σ : Type u} {ι : Type v} {ω : Type w} (M : Machine σ ι (List ω))

def log (s : σ) (is : List ι) : List ω := (M.outputs s is).flatten

@[simp] theorem log_nil (s : σ) : M.log s [] = [] := rfl

@[simp] theorem log_cons (s : σ) (i : ι) (is : List ι) :
    M.log s (i :: is) = (M.step s i).2 ++ M.log (M.step s i).1 is := rfl

theorem log_append (s : σ) (is js : List ι) :
    M.log s (is ++ js) = M.log s is ++ M.log (M.run s is) js := by
  rw [log, outputs_append, List.flatten_append, log, log]

theorem log_singleton (s : σ) (i : ι) : M.log s [i] = (M.step s i).2 := by
  rw [log_cons, log_nil, List.append_nil]

variable {M}

theorem run_concat (s : σ) (is : List ι) (i : ι) :
    M.run s (is ++ [i]) = (M.step (M.run s is) i).1 := by
  rw [run_append, run_cons, run_nil]

theorem log_concat (s : σ) (is : List ι) (i : ι) :
    M.log s (is ++ [i]) = M.log s is ++ (M.step (M.run s is) i).2 := by
  rw [log_append, log_singleton]

/-- Induction on a run, from its beginning: what holds before the first input and is kept by every
step holds of the inputs, the state and the notes of the whole run. -/
theorem run_history {P : List ι → σ → List ω → Prop} {s : σ} (hs : P [] s [])
    (hstep : ∀ past s notes i, P past s notes →
      P (past ++ [i]) (M.step s i).1 (notes ++ (M.step s i).2)) (is : List ι) :
    P is (M.run s is) (M.log s is) := by
  induction is using List.reverseRecOn with
  | nil => exact hs
  | append_singleton is i ih =>
    rw [run_concat, log_concat]
    exact hstep is _ _ i ih

/-- Among states with an invariant, notes that take items out and put items in balance with what the
states hold. -/
theorem run_account {α : Type x} {I : σ → Prop} (out into : ω → List α) (held : σ → List α)
    (hkeep : ∀ s i, I s → I (M.step s i).1)
    (hstep : ∀ s i, I s →
      (M.step s i).2.flatMap out ++ held (M.step s i).1 = held s ++ (M.step s i).2.flatMap into)
    {s : σ} (hs : I s) (is : List ι) :
    (M.log s is).flatMap out ++ held (M.run s is) = held s ++ (M.log s is).flatMap into := by
  induction is generalizing s with
  | nil => exact (List.append_nil _).symm
  | cons i is ih =>
    rw [log_cons, run_cons, List.flatMap_append, List.append_assoc, ih (hkeep s i hs),
      ← List.append_assoc, hstep s i hs, List.append_assoc, ← List.flatMap_append]

theorem log_flatMap_congr {α : Type x} {I : σ → Prop} {f g : ω → List α}
    (hkeep : ∀ s i, I s → I (M.step s i).1)
    (hstep : ∀ s i, I s → (M.step s i).2.flatMap f = (M.step s i).2.flatMap g)
    {s : σ} (hs : I s) (is : List ι) : (M.log s is).flatMap f = (M.log s is).flatMap g := by
  have h := run_account f g (fun _ => []) hkeep
    (fun s i hs => by rw [hstep s i hs, List.append_nil, List.nil_append]) hs is
  rwa [List.append_nil, List.nil_append] at h

theorem log_forall {I : σ → Prop} {Q : ω → Prop} {is : List ι}
    (hkeep : ∀ s, ∀ i ∈ is, I s → I (M.step s i).1)
    (hstep : ∀ s, ∀ i ∈ is, I s → ∀ note ∈ (M.step s i).2, Q note)
    {s : σ} (hs : I s) : ∀ note ∈ M.log s is, Q note := by
  induction is generalizing s with
  | nil => exact fun note hnote => absurd hnote List.not_mem_nil
  | cons i is ih =>
    intro note hnote
    rcases List.mem_append.mp hnote with hnow | hlater
    · exact hstep s i List.mem_cons_self hs note hnow
    · exact ih (fun t j hj => hkeep t j (List.mem_cons_of_mem i hj))
        (fun t j hj => hstep t j (List.mem_cons_of_mem i hj))
        (hkeep s i List.mem_cons_self hs) note hlater

/-! ### Simulation -/

variable {τ : Type u} {κ : Type v} {υ : Type w}

/-- The inputs that a run stands for, when every step stands for some, or for none. -/
def absInputs (M : Machine σ ι (List ω)) (abs : σ → ι → List κ) (s : σ) : List ι → List κ
  | [] => []
  | i :: is => abs s i ++ absInputs M abs (M.step s i).1 is

/-- The concrete machine steps as the abstract one does on the inputs that its step stands for: the
states stay related, and the abstract notes are what can be seen of the concrete ones.  A step that
stands for no input leaves the abstract machine where it is. -/
structure Simulates (M : Machine σ ι (List ω)) (N : Machine τ κ (List υ)) (Rel : σ → τ → Prop)
    (Ok : σ → ι → Prop) (abs : σ → ι → List κ) (see : ω → List υ) : Prop where
  keeps : ∀ s t i, Rel s t → Ok s i → Rel (M.step s i).1 (N.run t (abs s i))
  notes : ∀ s t i, Rel s t → Ok s i → (M.step s i).2.flatMap see = N.log t (abs s i)

/-- Every input of the run is one that the simulation covers where it comes. -/
def AllOk (M : Machine σ ι (List ω)) (Ok : σ → ι → Prop) (s : σ) : List ι → Prop
  | [] => True
  | i :: is => Ok s i ∧ AllOk M Ok (M.step s i).1 is

theorem allOk_of_forall {Ok : σ → ι → Prop} {is : List ι} (h : ∀ s, ∀ i ∈ is, Ok s i) (s : σ) :
    AllOk M Ok s is := by
  induction is generalizing s with
  | nil => trivial
  | cons i is ih =>
    exact ⟨h s i List.mem_cons_self, ih (fun t j hj => h t j (List.mem_cons_of_mem i hj)) _⟩

variable {N : Machine τ κ (List υ)} {Rel : σ → τ → Prop} {Ok : σ → ι → Prop}
  {abs : σ → ι → List κ} {see : ω → List υ}

theorem Simulates.run (h : Simulates M N Rel Ok abs see) {s : σ} {t : τ} (hrel : Rel s t)
    {is : List ι} (hok : AllOk M Ok s is) :
    Rel (M.run s is) (N.run t (M.absInputs abs s is)) ∧
      (M.log s is).flatMap see = N.log t (M.absInputs abs s is) := by
  induction is generalizing s t with
  | nil => exact ⟨hrel, rfl⟩
  | cons i is ih =>
    obtain ⟨hi, his⟩ := hok
    obtain ⟨hend, hlog⟩ := ih (h.keeps s t i hrel hi) his
    rw [absInputs, run_append, log_append]
    refine ⟨hend, ?_⟩
    rw [log_cons, List.flatMap_append, h.notes s t i hrel hi, hlog]

end XChaty.ProofKit.Machine
