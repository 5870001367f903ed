import Mathlib.Data.List.Forall2
import SqlDialect.Error

/-!
This module contains the laws by which a computation that may fail is taken apart, and by which a
computation is compared with a family of others that do the same with other data. The first ones do
not depend on why computations fail.
-/

namespace SqlDialect
namespace Compile

section Except

variable {ε α β : Type}

@[simp]
theorem pure_eq_ok (a : α) : (pure a : Except ε α) = .ok a := rfl

@[simp]
theorem ok_bind (a : α) (f : α → Except ε β) : (Except.ok a >>= f : Except ε β) = f a := rfl

@[simp]
theorem error_bind (e : ε) (f : α → Except ε β)
    : (Except.error e >>= f : Except ε β) = .error e := rfl

theorem bind_eq_ok_iff {x : Except ε α} {f : α → Except ε β} {b : β}
    : x >>= f = .ok b ↔ ∃ a, x = .ok a ∧ f a = .ok b := by
  cases x with
  | error e => simp
  | ok a => simp

theorem exists_bind {x : Except ε α} {f : α → Except ε β} (hx : ∃ a, x = .ok a)
    (hf : ∀ a, ∃ b, f a = .ok b) : ∃ b, x >>= f = .ok b := by
  obtain ⟨a, rfl⟩ := hx
  exact hf a

theorem map_eq_ok_iff {x : Except ε α} {f : α → β} {b : β}
    : f <$> x = .ok b ↔ ∃ a, x = .ok a ∧ f a = b := by
  cases x with
  | error e => simp [Functor.map, Except.map]
  | ok a => simp [Functor.map, Except.map]

theorem map_eq_error_iff {x : Except ε α} {f : α → β} {e : ε}
    : f <$> x = .error e ↔ x = .error e := by
  cases x with
  | error e => simp [Functor.map, Except.map]
  | ok a => simp [Functor.map, Except.map]

theorem mapM_eq_ok_iff {f : α → Except ε β} {as : List α} {bs : List β}
    : as.mapM f = .ok bs ↔ List.Forall₂ (fun a b => f a = .ok b) as bs := by
  induction as generalizing bs with
  | nil => simp [eq_comm]
  | cons a as ih =>
    simp only [List.mapM_cons, bind_eq_ok_iff, pure_eq_ok, Except.ok.injEq, ih]
    constructor
    · rintro ⟨b, hb, bs, hbs, rfl⟩
      exact .cons hb hbs
    · intro h
      cases h with
      | cons hb hbs => exact ⟨_, hb, _, hbs, rfl⟩

theorem mapM_eq_error_iff {f : α → Except ε β} {as : List α} {e : ε}
    : as.mapM f = .error e
        ↔ ∃ before a after, as = before ++ a :: after ∧ (∀ b ∈ before, ∃ r, f b = .ok r)
            ∧ f a = .error e := by
  induction as with
  | nil => simp
  | cons a as ih =>
    rw [List.mapM_cons]
    cases ha : f a with
    | error e' =>
      constructor
      · intro h
        cases h
        exact ⟨[], a, as, rfl, by simp, ha⟩
      · rintro ⟨before, b, after, heq, hbefore, hb⟩
        -- No step before the one that fails is the first one, since that fails.
        cases before with
        | nil =>
          cases heq
          rw [ha] at hb
          cases hb
          rfl
        | cons c before =>
          cases heq
          obtain ⟨r, hr⟩ := hbefore a List.mem_cons_self
          rw [ha] at hr
          cases hr
    | ok r =>
      have hrest : (do let rs ← as.mapM f; pure (r :: rs) : Except ε (List β)) = .error e
          ↔ as.mapM f = .error e := by
        cases as.mapM f <;> simp
      rw [ok_bind, hrest, ih]
      constructor
      · rintro ⟨before, b, after, rfl, hbefore, hb⟩
        refine ⟨a :: before, b, after, rfl, ?_, hb⟩
        exact List.forall_mem_cons.mpr ⟨⟨r, ha⟩, hbefore⟩
      · rintro ⟨before, b, after, heq, hbefore, hb⟩
        cases before with
        | nil =>
          cases heq
          rw [ha] at hb
          cases hb
        | cons c before =>
          cases heq
          exact ⟨before, b, after, rfl, (List.forall_mem_cons.mp hbefore).2, hb⟩

theorem exists_of_mem_forall₂ {R : α → β → Prop} {as : List α} {bs : List β}
    (h : List.Forall₂ R as bs) : ∀ b ∈ bs, ∃ a ∈ as, R a b := by
  induction h with
  | nil => simp
  | cons head tail ih => grind

theorem exists_mapM_eq_ok_iff {f : α → Except ε β} {as : List α}
    : (∃ rs, as.mapM f = .ok rs) ↔ ∀ a ∈ as, ∃ r, f a = .ok r := by
  constructor
  · rintro ⟨rs, h⟩ a ha
    have hrelated := mapM_eq_ok_iff.mp h
    obtain ⟨r, -, hr⟩ := exists_of_mem_forall₂ (R := fun r a => f a = .ok r) hrelated.flip a ha
    exact ⟨r, hr⟩
  · intro h
    cases hresult : as.mapM f with
    | ok rs => exact ⟨rs, rfl⟩
    | error e =>
      obtain ⟨before, a, after, rfl, -, ha⟩ := mapM_eq_error_iff.mp hresult
      obtain ⟨r, hr⟩ := h a (by simp)
      rw [ha] at hr
      cases hr

end Except

variable {α β : Type}

theorem bind_congr_of_ok {x : Compile α} {f g : α → Compile β} (h : ∀ a, x = .ok a → f a = g a)
    : x >>= f = x >>= g := by
  cases x with
  | error e => simp
  | ok a => exact h a rfl

def failure? : Compile α → Option CompileError
  | .ok _ => none
  | .error e => some e

@[simp]
theorem failure?_eq_some_iff {x : Compile α} {e : CompileError}
    : x.failure? = some e ↔ x = .error e := by
  cases x <;> simp [failure?]

theorem failure?_eq_none_iff {x : Compile α} : x.failure? = none ↔ ∃ a, x = .ok a := by
  cases x <;> simp [failure?]

theorem exists_of_toOption {x : Compile α} {f : α → β} {b : β}
    (h : x.toOption.map f = some b) : ∃ a, x = .ok a ∧ f a = b := by
  cases x with
  | error e => cases h
  | ok a => exact ⟨a, rfl, Option.some.inj h⟩

theorem mapM_eq_ok_map {f : α → Compile β} {g : α → β} (h : ∀ a, f a = .ok (g a)) {as : List α}
    : as.mapM f = .ok (as.map g) := by
  rw [mapM_eq_ok_iff, List.forall₂_map_right_iff]
  apply List.forall₂_same.mpr
  intro a _
  exact h a

theorem mapM_map {γ : Type} (f : α → Compile β) (g : β → γ) (as : List α)
    : as.mapM (fun a => g <$> f a) = List.map g <$> as.mapM f := by
  induction as with
  | nil => rfl
  | cons a as ih => simp [List.mapM_cons, ih]

end Compile

inductive Listwise {ι α β : Type} (R : α → (ι → β) → Prop) : List α → (ι → List β) → Prop where
  | nil : Listwise R [] fun _ => []
  | cons {a : α} {b : ι → β} {as : List α} {bs : ι → List β} (head : R a b)
      (tail : Listwise R as bs) : Listwise R (a :: as) fun i => b i :: bs i

inductive Alongside {ι α β γ : Type} (R : γ → α → (ι → β) → Prop) :
    List γ → List α → (ι → List β) → Prop where
  | nil : Alongside R [] [] fun _ => []
  | cons {c : γ} {a : α} {b : ι → β} {cs : List γ} {as : List α} {bs : ι → List β}
      (head : R c a b) (tail : Alongside R cs as bs) :
      Alongside R (c :: cs) (a :: as) fun i => b i :: bs i

inductive Optionwise {ι α β : Type} (R : α → (ι → β) → Prop) :
    Option α → (ι → Option β) → Prop where
  | none : Optionwise R none fun _ => none
  | some {a : α} {b : ι → β} (h : R a b) : Optionwise R (some a) fun i => some (b i)

theorem Alongside.listwise {ι α β γ : Type} {R : α → (ι → β) → Prop} {cs : List γ} {as : List α}
    {bs : ι → List β} (h : Alongside (fun _ => R) cs as bs) : Listwise R as bs := by
  induction h with
  | nil => exact .nil
  | cons head tail ih => exact .cons head ih

theorem Listwise.append {ι α β : Type} {R : α → (ι → β) → Prop} {as as' : List α}
    {bs bs' : ι → List β} (h : Listwise R as bs) (h' : Listwise R as' bs')
    : Listwise R (as ++ as') fun i => bs i ++ bs' i := by
  induction h with
  | nil => exact h'
  | cons head tail ih => exact .cons head ih

theorem Listwise.tail {ι α β : Type} {R : α → (ι → β) → Prop} {as : List α} {bs : ι → List β}
    (h : Listwise R as bs) : Listwise R as.tail fun i => (bs i).tail := by
  cases h with
  | nil => exact .nil
  | cons head tail => exact tail

theorem Listwise.getD {ι α β : Type} {R : α → (ι → β) → Prop} {as : List α} {bs : ι → List β}
    (h : Listwise R as bs) (n : Nat) {a : α} {b : β} (hdefault : R a fun _ => b)
    : R (as.getD n a) fun i => (bs i).getD n b := by
  induction h generalizing n with
  | nil => exact hdefault
  | cons head tail ih =>
    cases n with
    | zero => exact head
    | succ n => exact ih n

theorem listwise_map {ι α β γ : Type} {R : α → (ι → β) → Prop} {f : γ → α} {g : ι → γ → β}
    (h : ∀ c, R (f c) fun i => g i c) (cs : List γ)
    : Listwise R (cs.map f) fun i => cs.map (g i) := by
  induction cs with
  | nil => exact .nil
  | cons c cs ih => exact .cons (h c) ih

theorem Listwise.map {ι α β γ δ : Type} {R : α → (ι → β) → Prop} {S : γ → (ι → δ) → Prop}
    {f : α → γ} {g : β → δ} (h : ∀ a b, R a b → S (f a) fun i => g (b i)) {as : List α}
    {bs : ι → List β} (hlist : Listwise R as bs)
    : Listwise S (as.map f) fun i => (bs i).map g := by
  induction hlist with
  | nil => exact .nil
  | cons head tail ih => exact .cons (h _ _ head) ih

namespace Compile

/--
If `x` succeeds, all of `y` do, and what they compute is related.
-/
def Tracks {ι α β : Type} (R : α → (ι → β) → Prop) (x : Compile α) (y : ι → Compile β) : Prop :=
  ∀ a, x = .ok a → ∃ b, (∀ i, y i = .ok (b i)) ∧ R a b

namespace Tracks

variable {ι α β γ δ : Type} {R : α → (ι → β) → Prop} {S : γ → (ι → δ) → Prop}

theorem ok {a : α} {b : ι → β} (h : R a b) : Tracks R (.ok a) fun i => .ok (b i) := by
  intro a' ha
  cases ha
  exact ⟨b, fun _ => rfl, h⟩

theorem error {e : CompileError} {y : ι → Compile β} : Tracks R (.error e) y := by
  intro a ha
  cases ha

theorem ite {c : Prop} [Decidable c] {x x' : Compile α} {y y' : ι → Compile β}
    (hpos : Tracks R x y) (hneg : Tracks R x' y')
    : Tracks R (if c then x else x') fun i => if c then y i else y' i := by
  by_cases hc : c
  · simp only [hc, if_true]
    exact hpos
  · simp only [hc, if_false]
    exact hneg

theorem bind {x : Compile α} {y : ι → Compile β} {f : α → Compile γ} {g : ι → β → Compile δ}
    (hx : Tracks R x y) (hf : ∀ a b, R a b → Tracks S (f a) fun i => g i (b i))
    : Tracks S (x >>= f) fun i => y i >>= g i := by
  intro c hc
  obtain ⟨a, ha, hc⟩ := bind_eq_ok_iff.mp hc
  obtain ⟨b, hb, hab⟩ := hx a ha
  obtain ⟨d, hd, hcd⟩ := hf a b hab c hc
  refine ⟨d, fun i => ?_, hcd⟩
  change y i >>= g i = _
  rw [hb i]
  exact hd i

theorem map {x : Compile α} {y : ι → Compile β} {f : α → γ} {g : ι → β → δ} (hx : Tracks R x y)
    (hf : ∀ a b, R a b → S (f a) fun i => g i (b i))
    : Tracks S (x >>= fun a => .ok (f a)) fun i => y i >>= fun b => .ok (g i b) :=
  hx.bind fun a b hab => ok (hf a b hab)

theorem mono {R' : α → (ι → β) → Prop} {x : Compile α} {y : ι → Compile β} (h : Tracks R x y)
    (hR : ∀ a b, R a b → R' a b) : Tracks R' x y := by
  intro a ha
  obtain ⟨b, hb, hab⟩ := h a ha
  exact ⟨b, hb, hR a b hab⟩

theorem bind_same {x : Compile α} {f : α → Compile γ} {g : ι → α → Compile δ}
    (hf : ∀ a, Tracks S (f a) fun i => g i a) : Tracks S (x >>= f) fun i => x >>= g i := by
  intro c hc
  obtain ⟨a, ha, hc⟩ := bind_eq_ok_iff.mp hc
  obtain ⟨d, hd, hcd⟩ := hf a c hc
  refine ⟨d, fun i => ?_, hcd⟩
  rw [ha]
  exact hd i

theorem mapM_alongside {S : α → γ → (ι → δ) → Prop} {as : List α} {h : ι → α → β}
    {f : α → Compile γ} {g : ι → β → Compile δ}
    (hf : ∀ a ∈ as, Tracks (S a) (f a) fun i => g i (h i a))
    : Tracks (Alongside S as) (as.mapM f) fun i => (as.map (h i)).mapM (g i) := by
  induction as with
  | nil => exact ok .nil
  | cons a as ih =>
    simp only [List.map_cons, List.mapM_cons]
    apply bind (hf a List.mem_cons_self)
    intro c d hcd
    apply bind (ih fun a ha => hf a (List.mem_cons_of_mem _ ha))
    intro cs ds hcds
    exact ok (.cons hcd hcds)

theorem mapM {as : List α} {h : ι → α → β} {f : α → Compile γ} {g : ι → β → Compile δ}
    (hf : ∀ a ∈ as, Tracks S (f a) fun i => g i (h i a))
    : Tracks (Listwise S) (as.mapM f) fun i => (as.map (h i)).mapM (g i) := by
  intro cs hcs
  obtain ⟨ds, hds, hrelated⟩ := mapM_alongside (S := fun _ => S) hf cs hcs
  exact ⟨ds, hds, hrelated.listwise⟩

end Tracks

/--
Two computations that both succeed, and what they compute is related, or fail for the same reason.
-/
inductive Agree {α β : Type} (R : α → β → Prop) : Compile α → Compile β → Prop where
  | ok {a : α} {b : β} (h : R a b) : Agree R (.ok a) (.ok b)
  | error (e : CompileError) : Agree R (.error e) (.error e)

namespace Agree

variable {α β γ δ : Type} {R : α → β → Prop} {S : γ → δ → Prop}

theorem refl {R : α → α → Prop} (hR : ∀ a, R a a) (x : Compile α) : Agree R x x := by
  cases x with
  | ok a => exact .ok (hR a)
  | error e => exact .error e

theorem exists_ok_iff {x : Compile α} {y : Compile β} (h : Agree R x y)
    : (∃ a, x = .ok a) ↔ ∃ b, y = .ok b := by
  cases h with
  | ok h => simp
  | error e => simp

theorem of_eq_ok {x : Compile α} {y : Compile β} {a : α} {b : β} (h : Agree R x y)
    (hx : x = .ok a) (hy : y = .ok b) : R a b := by
  cases h with
  | ok h =>
    cases hx
    cases hy
    exact h
  | error e => cases hx

theorem ite {c : Prop} [Decidable c] {x x' : Compile α} {y y' : Compile β}
    (hpos : Agree R x y) (hneg : Agree R x' y')
    : Agree R (if c then x else x') (if c then y else y') := by
  by_cases hc : c
  · simp only [hc, if_true]
    exact hpos
  · simp only [hc, if_false]
    exact hneg

theorem bind {x : Compile α} {y : Compile β} {f : α → Compile γ} {g : β → Compile δ}
    (hx : Agree R x y) (hf : ∀ a b, R a b → Agree S (f a) (g b))
    : Agree S (x >>= f) (y >>= g) := by
  cases hx with
  | ok h => exact hf _ _ h
  | error e => exact .error e

theorem bind_same {x : Compile α} {f : α → Compile γ} {g : α → Compile δ}
    (hf : ∀ a, Agree S (f a) (g a)) : Agree S (x >>= f) (x >>= g) := by
  cases x with
  | ok a => exact hf a
  | error e => exact .error e

theorem map {x : Compile α} {y : Compile β} {f : α → γ} {g : β → δ} (hx : Agree R x y)
    (hf : ∀ a b, R a b → S (f a) (g b))
    : Agree S (x >>= fun a => .ok (f a)) (y >>= fun b => .ok (g b)) :=
  hx.bind fun a b hab => .ok (hf a b hab)

theorem map_left {Q : γ → β → Prop} {x : Compile α} {y : Compile β} {f : α → γ} (hx : Agree R x y)
    (hf : ∀ a b, R a b → Q (f a) b) : Agree Q (x >>= fun a => .ok (f a)) y := by
  cases hx with
  | ok h => exact .ok (hf _ _ h)
  | error e => exact .error e

theorem mapM {as : List α} {f : α → Compile γ} {g : α → Compile δ}
    (hf : ∀ a ∈ as, Agree S (f a) (g a)) : Agree (List.Forall₂ S) (as.mapM f) (as.mapM g) := by
  induction as with
  | nil => exact .ok .nil
  | cons a as ih =>
    simp only [List.mapM_cons]
    refine (hf a List.mem_cons_self).bind fun c d hcd => ?_
    refine (ih fun a ha => hf a (List.mem_cons_of_mem _ ha)).map fun cs ds hcds => ?_
    exact .cons hcd hcds

theorem mono {R' : α → β → Prop} {x : Compile α} {y : Compile β} (h : Agree R x y)
    (hR : ∀ a b, R a b → R' a b) : Agree R' x y := by
  cases h with
  | ok h => exact .ok (hR _ _ h)
  | error e => exact .error e

theorem trans_symm {x y : Compile α} {z : Compile β} {Q : α → α → Prop} (hx : Agree R x z)
    (hy : Agree R y z) (hQ : ∀ a b c, R a c → R b c → Q a b) : Agree Q x y := by
  cases hx with
  | ok h =>
    cases hy with
    | ok h' => exact .ok (hQ _ _ _ h h')
  | error e =>
    cases hy with
    | error => exact .error e

end Agree

end Compile
end SqlDialect
