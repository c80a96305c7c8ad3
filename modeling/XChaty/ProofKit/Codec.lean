import Mathlib.Data.List.Basic
import Mathlib.Data.List.Infix

/-! Readers over a stream of symbols that never stop: a read that fails returns a default and
records the first error, and the reads after it go on from where it left the stream.  `Reads` says
that a reader takes back exactly what a writer put, and `Consumes` that a reader without an error
has taken exactly what a writer would put for its result.  Both pass through `pure` and `bind`, and
together they make the code prefix-free. -/

namespace XChaty.ProofKit.Codec

universe u v w

/-- The unread symbols of a stream, and the first error that a read has met. -/
structure Cursor (β : Type u) (ε : Type v) where
  rest : List β
  error : Option ε
deriving DecidableEq, Repr

structure Reader (β : Type u) (ε : Type v) (α : Type w) where
  run : Cursor β ε → α × Cursor β ε

instance (β : Type u) (ε : Type v) : Monad (Reader.{u, v, w} β ε) where
  pure a := ⟨fun c => (a, c)⟩
  bind r f := ⟨fun c => (f (r.run c).1).run (r.run c).2⟩

variable {β : Type u} {ε : Type v} {α γ : Type w}

@[simp] theorem run_pure (a : α) (c : Cursor β ε) : (pure a : Reader β ε α).run c = (a, c) := rfl

@[simp] theorem run_bind (r : Reader β ε α) (f : α → Reader β ε γ) (c : Cursor β ε) :
    (r >>= f).run c = (f (r.run c).1).run (r.run c).2 := rfl

def Cursor.fail (c : Cursor β ε) (e : ε) : Cursor β ε :=
  { c with error := c.error <|> some e }

theorem Cursor.fail_error_ne (c : Cursor β ε) (e : ε) : (c.fail e).error ≠ none := by
  cases h : c.error <;> simp [Cursor.fail, h]

def raise (e : ε) (a : α) : Reader β ε α := ⟨fun c => (a, c.fail e)⟩

/-- A field of `n` symbols, as `f` of them.  When fewer are left, they are all taken and the result
is `default`. -/
def field (e : ε) (n : Nat) (f : List β → α) (default : α) : Reader β ε α := ⟨fun c =>
  if n ≤ c.rest.length then (f (c.rest.take n), { c with rest := c.rest.drop n })
  else (default, Cursor.fail { c with rest := [] } e)⟩

theorem field_of_le {e : ε} {n : Nat} {f : List β → α} {default : α} {c : Cursor β ε}
    (h : n ≤ c.rest.length) :
    (field e n f default).run c = (f (c.rest.take n), { c with rest := c.rest.drop n }) :=
  if_pos h

theorem field_of_lt {e : ε} {n : Nat} {f : List β → α} {default : α} {c : Cursor β ε}
    (h : c.rest.length < n) :
    (field e n f default).run c = (default, Cursor.fail { c with rest := [] } e) :=
  if_neg (by omega)

/-! ### Reading back what was written -/

/-- `r` takes `code` off the stream and returns `a`, whatever follows and whatever error there
was. -/
def Reads (r : Reader β ε α) (code : List β) (a : α) : Prop :=
  ∀ rest error, r.run ⟨code ++ rest, error⟩ = (a, ⟨rest, error⟩)

theorem pure_reads (a : α) : Reads (pure a : Reader β ε α) [] a := fun _ _ => rfl

theorem bind_reads {r : Reader β ε α} {f : α → Reader β ε γ} {code code' : List β} {a : α} {b : γ}
    (h : Reads r code a) (h' : Reads (f a) code' b) : Reads (r >>= f) (code ++ code') b := by
  intro rest error
  rw [run_bind, List.append_assoc, h]
  exact h' rest error

theorem bind_pure_reads {r : Reader β ε α} {f : α → γ} {code : List β} {a : α}
    (h : Reads r code a) : Reads (r >>= fun a => pure (f a)) code (f a) := by
  intro rest error
  rw [run_bind, h, run_pure]

theorem field_reads (e : ε) (f : List β → α) (default : α) {n : Nat} {code : List β}
    (h : code.length = n) : Reads (field e n f default) code (f code) := by
  intro rest error
  rw [field_of_le (by simp [← h])]
  simp [← h]

def times (r : Reader β ε α) : Nat → Reader β ε (List α)
  | 0 => pure []
  | n + 1 => do
    let a ← r
    let as ← times r n
    pure (a :: as)

theorem times_reads {r : Reader β ε α} {code : α → List β} {as : List α}
    (h : ∀ a ∈ as, Reads r (code a) a) : Reads (times r as.length) (as.flatMap code) as := by
  induction as with
  | nil => exact pure_reads []
  | cons a as ih =>
    have tail := ih fun b hb => h b (List.mem_cons_of_mem a hb)
    exact bind_reads (h a List.mem_cons_self) (bind_pure_reads (f := (a :: ·)) tail)

/-! ### Taking exactly what would be written -/

/-- When `r` ends without an error it started without one, and it has taken what is left of the
code of its result after `before`. -/
def Consumes (before : List β) (code : α → List β) (r : Reader β ε α) : Prop :=
  ∀ c, (r.run c).2.error = none →
    c.error = none ∧ before ++ c.rest = code (r.run c).1 ++ (r.run c).2.rest

theorem pure_consumes {before : List β} {code : α → List β} {a : α} (h : before = code a) :
    Consumes before code (pure a : Reader β ε α) := by
  intro c hc
  exact ⟨hc, by rw [h, run_pure]⟩

theorem raise_consumes (before : List β) (code : α → List β) (e : ε) (a : α) :
    Consumes before code (raise e a : Reader β ε α) :=
  fun c hc => absurd hc (c.fail_error_ne e)

theorem bind_consumes {before : List β} {code : α → List β} {code' : γ → List β}
    {r : Reader β ε α} {f : α → Reader β ε γ} (h : Consumes [] code r)
    (h' : ∀ a, Consumes (before ++ code a) code' (f a)) : Consumes before code' (r >>= f) := by
  intro c hc
  obtain ⟨middle, tail⟩ := h' (r.run c).1 (r.run c).2 hc
  obtain ⟨start, head⟩ := h c middle
  refine ⟨start, ?_⟩
  rw [List.nil_append] at head
  rw [head, ← List.append_assoc]
  exact tail

theorem field_consumes {before : List β} {code : α → List β} (e : ε) {n : Nat} {f : List β → α}
    (default : α) (h : ∀ taken, taken.length = n → before ++ taken = code (f taken)) :
    Consumes before code (field e n f default) := by
  intro c hc
  by_cases hle : n ≤ c.rest.length
  · rw [field_of_le hle] at hc ⊢
    refine ⟨hc, ?_⟩
    rw [← h _ (List.length_take_of_le hle), List.append_assoc, List.take_append_drop]
  · rw [field_of_lt (by omega)] at hc
    exact absurd hc (Cursor.fail_error_ne _ e)

/-! ### Prefixes of codes -/

/-- A reader that takes back `code a` and takes only codes meets an error on every strict prefix
of `code a`, provided that it takes back the code of what it would return there. -/
theorem strict_prefix_fails {r : Reader β ε α} {code : α → List β} {a : α} {start rest : List β}
    (hr : Consumes [] code r) (ha : Reads r (code a) a) (hcode : code a = start ++ rest)
    (hrest : rest ≠ [])
    (hback : Reads r (code (r.run ⟨start, none⟩).1) (r.run ⟨start, none⟩).1) :
    (r.run ⟨start, none⟩).2.error ≠ none := by
  intro hok
  obtain ⟨-, htaken⟩ := hr _ hok
  rw [List.nil_append] at htaken
  have hsame : r.run ⟨code a ++ [], none⟩ = r.run ⟨code (r.run ⟨start, none⟩).1 ++
      ((r.run ⟨start, none⟩).2.rest ++ rest), none⟩ := by
    rw [List.append_nil, hcode, ← List.append_assoc, ← htaken]
  rw [ha, hback] at hsame
  have hnil : [] = (r.run ⟨start, none⟩).2.rest ++ rest :=
    congrArg (fun p => p.2.rest) hsame
  exact hrest (List.append_eq_nil_iff.mp hnil.symm).2

end XChaty.ProofKit.Codec
