import Mathlib.Data.List.Forall2
import ChannelConfig.Error

/-! Computations that may fail, taken apart: what succeeded, and with what. -/

set_option autoImplicit false

namespace ChannelConfig

variable {E A B : Type}

theorem exists_of_map_eq_ok {x : Except E A} {f : A → B} {b : B} (h : x.map f = .ok b) :
    ∃ a, x = .ok a ∧ f a = b := by
  cases x with
  | error e => cases h
  | ok a =>
    cases h
    exact ⟨a, rfl, rfl⟩

theorem exists_of_bind_eq_ok {x : Except E A} {f : A → Except E B} {b : B}
    (h : (x >>= f) = .ok b) : ∃ a, x = .ok a ∧ f a = .ok b := by
  cases x with
  | error e => cases h
  | ok a => exact ⟨a, rfl, h⟩

/-- What each step keeps holds at the end of a run that succeeds. -/
theorem of_foldlM_eq_ok {P : B → Prop} {f : B → A → Except E B}
    (hstep : ∀ b a b', P b → f b a = .ok b' → P b') {as : List A} {b b' : B} (hb : P b)
    (h : as.foldlM f b = .ok b') : P b' := by
  induction as generalizing b with
  | nil =>
    cases h
    exact hb
  | cons a as ih =>
    rw [List.foldlM_cons] at h
    obtain ⟨next, hnext, h⟩ := exists_of_bind_eq_ok h
    exact ih (hstep b a next hb hnext) h

theorem eq_ok_of_toOption {x : Except E A} {a : A} (h : x.toOption = some a) : x = .ok a := by
  cases x with
  | error e => cases h
  | ok b =>
    cases h
    rfl

theorem mapError_ok {F : Type} (f : E → F) (a : A) :
    (Except.ok a : Except E A).mapError f = .ok a :=
  rfl

theorem eq_ok_of_mapError {F : Type} {f : E → F} {x : Except E A} {a : A}
    (h : x.mapError f = .ok a) : x = .ok a := by
  cases x with
  | error e => cases h
  | ok b =>
    cases h
    rfl

theorem eq_ok_of_within {place : Place} {x : Result A} {a : A} (h : x.within place = .ok a) :
    x = .ok a :=
  eq_ok_of_mapError h

/-- The elements of a list are taken one after the other, and each has its result. -/
theorem mapM_eq_ok_iff {f : A → Except E B} {as : List A} {bs : List B} :
    as.mapM f = .ok bs ↔ List.Forall₂ (fun a b => f a = .ok b) as bs := by
  constructor
  · intro h
    induction as generalizing bs with
    | nil =>
      cases h
      exact .nil
    | cons a as ih =>
      rw [List.mapM_cons] at h
      obtain ⟨b, hb, h⟩ := exists_of_bind_eq_ok h
      obtain ⟨bs, hbs, h⟩ := exists_of_bind_eq_ok h
      cases h
      exact .cons hb (ih hbs)
  · intro h
    induction h with
    | nil => rfl
    | cons hb _ ih =>
      rw [List.mapM_cons, hb, ih]
      rfl

/-- A list whose elements all succeed. -/
theorem mapM_eq_ok {f : A → Except E B} {as : List A} {bs : List B}
    (h : as.map f = bs.map .ok) : as.mapM f = .ok bs := by
  rw [← List.forall₂_eq_eq_eq, List.forall₂_map_left_iff, List.forall₂_map_right_iff] at h
  exact mapM_eq_ok_iff.2 h

/-- A list has partners if each of its elements has one. -/
theorem exists_forall₂_iff {R : A → B → Prop} {as : List A} :
    (∃ bs, List.Forall₂ R as bs) ↔ ∀ a ∈ as, ∃ b, R a b := by
  induction as with
  | nil => exact ⟨nofun, fun _ => ⟨[], .nil⟩⟩
  | cons a as ih =>
    rw [List.forall_mem_cons, ← ih]
    simp only [List.forall₂_cons_left_iff]
    constructor
    · rintro ⟨-, b, bs, hb, hbs, rfl⟩
      exact ⟨⟨b, hb⟩, bs, hbs⟩
    · rintro ⟨⟨b, hb⟩, bs, hbs⟩
      exact ⟨b :: bs, b, bs, hb, hbs, rfl⟩

theorem bind_congr_of_ok {x : Except E A} {f f' : A → Except E B}
    (h : ∀ a, x = .ok a → f a = f' a) : (x >>= f) = (x >>= f') := by
  cases x with
  | error e => rfl
  | ok a => exact h a rfl

/-- Computations that agree on the elements of a list agree on the list. -/
theorem mapM_congr {f f' : A → Except E B} {as : List A} (h : ∀ a ∈ as, f' a = f a) :
    as.mapM f' = as.mapM f := by
  induction as with
  | nil => rfl
  | cons a as ih =>
    obtain ⟨hfirst, hrest⟩ := List.forall_mem_cons.1 h
    rw [List.mapM_cons, List.mapM_cons, hfirst, ih hrest]

/-- Each result stands where the element stood that it comes from. -/
theorem exists_of_getElem?_mapM {f : A → Except E B} {as : List A} {bs : List B}
    (h : as.mapM f = .ok bs) {i : Nat} {b : B} (hb : bs[i]? = some b) :
    ∃ a, as[i]? = some a ∧ f a = .ok b := by
  induction as generalizing bs i with
  | nil =>
    cases h
    cases hb
  | cons a as ih =>
    rw [List.mapM_cons] at h
    obtain ⟨first, hfirst, h⟩ := exists_of_bind_eq_ok h
    obtain ⟨rest, hrest, h⟩ := exists_of_bind_eq_ok h
    cases h
    cases i with
    | zero =>
      cases hb
      exact ⟨a, rfl, hfirst⟩
    | succ i => exact ih hrest hb

/-! ## What a computation decides -/

/-- The error blames what was given, or a collaborator that was asked. -/
inductive ConfigError.OfInput : ConfigError → Prop where
  | validation {trail : List Place} {cause : Invalid} : OfInput (.validation trail cause)
  | parse {trail : List Place} {cause : PolicyFault} : OfInput (.parse trail cause)
  | collaborator {trail : List Place} {task : Task} {failure : Failure} :
      OfInput (.collaborator trail task failure)

theorem ConfigError.OfInput.within {e : ConfigError} (h : e.OfInput) (place : Place) :
    (e.within place).OfInput := by
  cases h with
  | validation => exact .validation
  | parse => exact .parse
  | collaborator => exact .collaborator

namespace Result

/-- The computation succeeds exactly if `P` holds, and otherwise blames what it was given. -/
structure Decides (x : Result A) (P : Prop) : Prop where
  ok_iff : (∃ a, x = .ok a) ↔ P
  ofInput : ∀ e, x = .error e → e.OfInput

variable {x : Result A} {P Q : Prop}

theorem decides_ok (a : A) (hP : P) : Decides (.ok a) P :=
  ⟨⟨fun _ => hP, fun _ => ⟨a, rfl⟩⟩, fun _ h => nomatch h⟩

theorem decides_error {e : ConfigError} (he : e.OfInput) (hP : ¬ P) :
    Decides (.error e : Result A) P := by
  refine ⟨⟨fun ⟨_, ha⟩ => (nomatch ha), fun h => absurd h hP⟩, fun e' h => ?_⟩
  cases h
  exact he

theorem Decides.of_ok {a : A} (h : x.Decides P) (hx : x = .ok a) : P :=
  h.ok_iff.1 ⟨a, hx⟩

theorem Decides.not_of_error {e : ConfigError} (h : x.Decides P) (hx : x = .error e) : ¬ P := by
  intro hP
  obtain ⟨a, ha⟩ := h.ok_iff.2 hP
  rw [hx] at ha
  cases ha

theorem Decides.congr (h : x.Decides P) (hPQ : P ↔ Q) : x.Decides Q :=
  ⟨h.ok_iff.trans hPQ, h.ofInput⟩

theorem Decides.bind {f : A → Result B} (h : x.Decides P)
    (hf : ∀ a, x = .ok a → (f a).Decides Q) : Decides (x >>= f) (P ∧ Q) := by
  cases x with
  | error e => exact decides_error (h.ofInput e rfl) fun hPQ => h.not_of_error rfl hPQ.1
  | ok a =>
    have hP : P := h.of_ok rfl
    exact (hf a rfl).congr (and_iff_right hP).symm

theorem Decides.map (h : x.Decides P) (f : A → B) : Decides (Except.map f x) P := by
  cases x with
  | error e => exact decides_error (h.ofInput e rfl) (h.not_of_error rfl)
  | ok a => exact decides_ok (f a) (h.of_ok rfl)

theorem Decides.within (h : x.Decides P) (place : Place) : (x.within place).Decides P := by
  cases x with
  | error e => exact decides_error ((h.ofInput e rfl).within place) (h.not_of_error rfl)
  | ok a => exact decides_ok a (h.of_ok rfl)

/-- The elements of a list are taken one after the other, and all have to succeed. -/
theorem decides_mapM {f : A → Result B} {P : A → Prop} {as : List A}
    (h : ∀ a ∈ as, (f a).Decides (P a)) : Decides (as.mapM f) (∀ a ∈ as, P a) := by
  induction as with
  | nil => exact decides_ok [] nofun
  | cons a as ih =>
    rw [List.mapM_cons]
    have hfirst := h a (List.mem_cons_self ..)
    have hrest := ih fun b hb => h b (List.mem_cons_of_mem a hb)
    refine (hfirst.bind fun b _ => hrest.bind (Q := True) fun bs _ => decides_ok _ trivial).congr ?_
    rw [and_true, List.forall_mem_cons]

end Result

end ChannelConfig
