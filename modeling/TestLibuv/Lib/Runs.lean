import Mathlib.Data.List.Basic
import Mathlib.Data.Option.Basic

/-!
# Runs of a transition function

A machine is a partial step function `step : σ → ι → Option σ`, a label carrying whatever the
environment chooses. A run is a list of labels folded through it. `Meets` says that every step of
a run is taken in a state that satisfies a condition, `Always` that every state it visits does;
`always_iff_meets` is the rule that characterises the second by the first.
-/

namespace Runs

variable {σ ι : Type*} (step : σ → ι → Option σ)

/-- The state a list of labels leads to. -/
def run : σ → List ι → Option σ
  | s, [] => some s
  | s, a :: as => (step s a).bind (run · as)

/-- Every step of the run is taken where `C` holds of the state and the label. -/
def Meets (C : σ → ι → Prop) : σ → List ι → Prop
  | _, [] => True
  | s, a :: as => C s a ∧ ∀ s', step s a = some s' → Meets C s' as

/-- `P` holds of every state the run visits. -/
def Always (P : σ → Prop) : σ → List ι → Prop
  | s, [] => P s
  | s, a :: as => P s ∧ ∀ s', step s a = some s' → Always P s' as

/-- Some run leads from `s₀` to `s`. -/
def Reachable (s₀ s : σ) : Prop := ∃ as, run step s₀ as = some s

variable {step}

@[simp] theorem run_nil (s : σ) : run step s [] = some s := rfl

theorem run_cons (s : σ) (a : ι) (as : List ι) :
    run step s (a :: as) = (step s a).bind (run step · as) := rfl

theorem run_cons_eq_some {s s' : σ} {a : ι} {as : List ι} :
    run step s (a :: as) = some s' ↔ ∃ t, step s a = some t ∧ run step t as = some s' := by
  rw [run_cons, Option.bind_eq_some_iff]

theorem run_append (as bs : List ι) (s : σ) :
    run step s (as ++ bs) = (run step s as).bind (run step · bs) := by
  induction as generalizing s with
  | nil => rfl
  | cons a as ih =>
    rw [List.cons_append, run_cons, run_cons, Option.bind_assoc]
    exact congrArg _ (funext fun t => ih t)

theorem run_append_eq_some {s s' : σ} {as bs : List ι} :
    run step s (as ++ bs) = some s' ↔ ∃ t, run step s as = some t ∧ run step t bs = some s' := by
  rw [run_append, Option.bind_eq_some_iff]

/-- Of machines that share a trace each runs on the events of its key. -/
theorem run_filter_concat {κ : Type*} [DecidableEq κ] {key : ι → κ} {s₀ : σ} {x x' : κ → σ}
    {es : List ι} {e : ι} (h : ∀ k, run step s₀ (es.filter fun e => key e = k) = some (x k))
    (hother : ∀ k, k ≠ key e → x' k = x k) (he : step (x (key e)) e = some (x' (key e))) (k : κ) :
    run step s₀ ((es ++ [e]).filter fun e => key e = k) = some (x' k) := by
  rw [List.filter_append]
  by_cases hk : key e = k
  · subst hk
    have hone : [e].filter (fun x => key x = key e) = [e] := by simp
    rw [hone, run_append_eq_some]
    exact ⟨_, h _, run_cons_eq_some.2 ⟨_, he, rfl⟩⟩
  · have hone : [e].filter (fun x => key x = k) = [] := by simp [hk]
    rw [hone, List.append_nil, hother k (Ne.symm hk)]
    exact h k

section Invariant

variable {I P : σ → Prop} {C : σ → ι → Prop}

/-- What the steps keep while they meet `C` holds at the end of a run whose steps all meet it. -/
theorem invariant_of_meets (hI : ∀ s a s', I s → C s a → step s a = some s' → I s') :
    ∀ {as : List ι} {s s' : σ}, I s → Meets step C s as → run step s as = some s' → I s'
  | [], _, _, h, _, hr => by
    rw [run_nil, Option.some.injEq] at hr
    exact hr ▸ h
  | _ :: _, _, _, h, hC, hr => by
    obtain ⟨t, ht, hr⟩ := run_cons_eq_some.1 hr
    exact invariant_of_meets hI (hI _ _ _ h hC.1 ht) (hC.2 t ht) hr

theorem Meets.and {D : σ → ι → Prop} : ∀ {as : List ι} {s : σ}, Meets step C s as →
    Meets step D s as → Meets step (fun s a => C s a ∧ D s a) s as
  | [], _, _, _ => trivial
  | _ :: _, _, hC, hD => ⟨⟨hC.1, hD.1⟩, fun s' hs' => (hC.2 s' hs').and (hD.2 s' hs')⟩

theorem meets_of_forall : ∀ {as : List ι} {s : σ}, (∀ a ∈ as, ∀ s, C s a) → Meets step C s as
  | [], _, _ => trivial
  | a :: _, s, h => ⟨h a List.mem_cons_self s, fun _ _ =>
      meets_of_forall fun b hb => h b (List.mem_cons_of_mem a hb)⟩

theorem meets_true (as : List ι) (s : σ) : Meets step (fun _ _ => True) s as :=
  meets_of_forall fun _ _ _ => trivial

/-- What every step keeps holds at the end of every run. -/
theorem invariant (hI : ∀ s a s', I s → step s a = some s' → I s') {as : List ι} {s s' : σ}
    (h : I s) (hr : run step s as = some s') : I s' :=
  invariant_of_meets (C := fun _ _ => True) (fun s a s' hs _ => hI s a s' hs) h
    (meets_true as s) hr

theorem Reachable.invariant (hI : ∀ s a s', I s → step s a = some s' → I s') {s s' : σ}
    (hr : Reachable step s s') (h : I s) : I s' :=
  let ⟨_, hr⟩ := hr
  Runs.invariant hI h hr

instance decidableMeets [∀ s a, Decidable (C s a)] :
    ∀ (s : σ) (as : List ι), Decidable (Meets step C s as)
  | _, [] => .isTrue trivial
  | s, a :: as =>
    match h : step s a with
    | none => decidable_of_iff (C s a) ⟨fun hc => ⟨hc, fun s' hs' => by simp [h] at hs'⟩, And.left⟩
    | some t =>
      have := decidableMeets t as
      decidable_of_iff (C s a ∧ Meets step C t as)
        ⟨fun hc => ⟨hc.1, fun s' hs' => Option.some.inj (h.symm.trans hs') ▸ hc.2⟩,
          fun hc => ⟨hc.1, hc.2 t h⟩⟩

theorem Always.head : ∀ {as : List ι} {s : σ}, Always step P s as → P s
  | [], _, h => h
  | _ :: _, _, h => h.1

/-- `Meets` speaks of every step of the run, with the state it is taken in. -/
theorem meets_iff_split : ∀ {as : List ι} {s : σ}, Meets step C s as ↔
    ∀ pre a post t, as = pre ++ a :: post → run step s pre = some t → C t a
  | [], s => by simp [Meets]
  | b :: as, s => by
    constructor
    · rintro ⟨h, hrest⟩ pre a post t hpre hr
      rcases pre with _ | ⟨c, pre⟩
      · obtain ⟨rfl, rfl⟩ := List.cons_eq_cons.1 hpre
        rw [run_nil, Option.some.injEq] at hr
        exact hr ▸ h
      · obtain ⟨rfl, rfl⟩ := List.cons_eq_cons.1 hpre
        obtain ⟨u, hu, hr⟩ := run_cons_eq_some.1 hr
        exact meets_iff_split.1 (hrest u hu) pre a post t rfl hr
    · intro h
      refine ⟨h [] b as s rfl rfl, fun u hu => meets_iff_split.2 ?_⟩
      rintro pre a post t rfl hr
      exact h (b :: pre) a post t rfl (run_cons_eq_some.2 ⟨u, hu, hr⟩)

theorem Meets.left : ∀ {as bs : List ι} {s : σ}, Meets step C s (as ++ bs) → Meets step C s as
  | [], _, _, _ => trivial
  | _ :: _, _, _, h => ⟨h.1, fun u hu => (h.2 u hu).left⟩

theorem Meets.behind : ∀ {as bs : List ι} {s t : σ}, Meets step C s (as ++ bs) →
    run step s as = some t → Meets step C t bs
  | [], bs, s, t, h, hr => by
    rw [run_nil, Option.some.injEq] at hr
    exact hr ▸ h
  | a :: as, bs, s, t, h, hr => by
    obtain ⟨u, hu, hr⟩ := run_cons_eq_some.1 hr
    exact (h.2 u hu).behind hr

/-- What does not hold where a run begins and holds where it ends came about in one of its steps. -/
theorem exists_turn : ∀ {as : List ι} {s s' : σ}, ¬ P s → P s' → run step s as = some s' →
    ∃ pre a post t t', as = pre ++ a :: post ∧ run step s pre = some t ∧ step t a = some t'
      ∧ ¬ P t ∧ P t'
  | [], s, s', h, h', hr => by
    rw [run_nil, Option.some.injEq] at hr
    exact absurd (hr ▸ h') h
  | a :: as, s, s', h, h', hr => by
    obtain ⟨t, ht, hr⟩ := run_cons_eq_some.1 hr
    by_cases hp : P t
    · exact ⟨[], a, as, s, t, rfl, rfl, ht, h, hp⟩
    · obtain ⟨pre, b, post, u, u', rfl, hu, hstep, hturn⟩ := exists_turn hp h' hr
      exact ⟨a :: pre, b, post, u, u', rfl, run_cons_eq_some.2 ⟨t, ht, hu⟩, hstep, hturn⟩

theorem always_of_meets (hI : ∀ s a s', I s → C s a → step s a = some s' → I s')
    (hP : ∀ s, I s → P s) : ∀ {as : List ι} {s : σ}, I s → Meets step C s as → Always step P s as
  | [], _, h, _ => hP _ h
  | _ :: _, _, h, hC => ⟨hP _ h, fun s' hs' =>
      always_of_meets hI hP (hI _ _ _ h hC.1 hs') (hC.2 s' hs')⟩

/-- If steps that meet `C` keep `I` and a step that breaks it breaks `P`, the runs that always
satisfy `P` are those whose steps all meet `C`. -/
theorem always_iff_meets (hI : ∀ s a s', I s → C s a → step s a = some s' → I s')
    (hP : ∀ s, I s → P s) (hbad : ∀ s a s', I s → ¬ C s a → step s a = some s' → ¬ P s') :
    ∀ {as : List ι} {s s' : σ}, I s → run step s as = some s' →
      (Always step P s as ↔ Meets step C s as)
  | [], _, _, h, _ => iff_of_true (hP _ h) trivial
  | a :: as, s, s', h, hr => by
    obtain ⟨t, ht, hr⟩ := run_cons_eq_some.1 hr
    constructor
    · rintro ⟨-, hrest⟩
      have hC : C s a := by
        by_contra hC
        exact hbad s a t h hC ht (hrest t ht).head
      refine ⟨hC, fun u hu => ?_⟩
      obtain rfl : t = u := Option.some.inj (ht.symm.trans hu)
      exact (always_iff_meets hI hP hbad (hI _ _ _ h hC ht) hr).1 (hrest t ht)
    · exact fun hC => always_of_meets hI hP h hC

/-- If steps that meet `C` keep `I`, and where `I` holds a step is as `D` says exactly if it meets
`C`, the runs whose steps are all as `D` says are those whose steps all meet `C`. -/
theorem meets_iff_meets {D : σ → ι → Prop} (hI : ∀ s a s', I s → C s a → step s a = some s' → I s')
    (hD : ∀ s a s', I s → step s a = some s' → (D s a ↔ C s a)) :
    ∀ {as : List ι} {s s' : σ}, I s → run step s as = some s' →
      (Meets step D s as ↔ Meets step C s as)
  | [], _, _, _, _ => Iff.rfl
  | a :: as, s, s', h, hr => by
    obtain ⟨t, ht, hr⟩ := run_cons_eq_some.1 hr
    have hrest : C s a → (Meets step D t as ↔ Meets step C t as) :=
      fun hC => meets_iff_meets hI hD (hI _ _ _ h hC ht) hr
    constructor
    · rintro ⟨hd, hds⟩
      have hC := (hD s a t h ht).1 hd
      refine ⟨hC, fun u hu => ?_⟩
      obtain rfl : t = u := Option.some.inj (ht.symm.trans hu)
      exact (hrest hC).1 (hds t ht)
    · rintro ⟨hC, hCs⟩
      refine ⟨(hD s a t h ht).2 hC, fun u hu => ?_⟩
      obtain rfl : t = u := Option.some.inj (ht.symm.trans hu)
      exact (hrest hC).2 (hCs t ht)

/-- A run either meets `C` throughout and ends in what such steps keep, or it does not and ends in
what a step that breaks `C` leads to and no step leaves. -/
theorem run_meets_or {K B : σ → Prop} (hI : ∀ s a s', I s → step s a = some s' → I s')
    (hK : ∀ s a s', I s → K s → C s a → step s a = some s' → K s')
    (hC : ∀ s a s', I s → ¬ C s a → step s a = some s' → B s')
    (hB : ∀ s a s', I s → B s → step s a = some s' → B s') :
    ∀ {as : List ι} {s s' : σ}, I s → K s → run step s as = some s' →
      Meets step C s as ∧ K s' ∨ ¬ Meets step C s as ∧ B s'
  | [], s, s', _, hs, hr => by
    rw [run_nil, Option.some.injEq] at hr
    exact .inl ⟨trivial, hr ▸ hs⟩
  | a :: as, s, s', hi, hs, hr => by
    obtain ⟨t, ht, hr⟩ := run_cons_eq_some.1 hr
    have hit := hI _ _ _ hi ht
    by_cases hc : C s a
    · rcases run_meets_or hI hK hC hB hit (hK _ _ _ hi hs hc ht) hr with ⟨hm, hk⟩ | ⟨hm, hb⟩
      · refine .inl ⟨⟨hc, fun u hu => ?_⟩, hk⟩
        rwa [← Option.some.inj (ht.symm.trans hu)]
      · exact .inr ⟨fun h => hm (h.2 t ht), hb⟩
    · refine .inr ⟨fun h => hc h.1, ?_⟩
      exact (invariant (I := fun s => I s ∧ B s)
        (fun s a s' h hs => ⟨hI s a s' h.1 hs, hB s a s' h.1 h.2 hs⟩) ⟨hit, hC _ _ _ hi hc ht⟩ hr).2

end Invariant

end Runs
