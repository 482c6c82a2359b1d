import DblService.Framework.Run

/-!
# Runs explained by another system

The answers of a run are explained when an abstract system could have given them, one
outcome for each event.  Where one step of a system is explained, so is every run.
-/

namespace DblService.Framework

variable {σ τ ε ρ α : Type}

/-- An outcome of the abstract system for every event and its answer. -/
inductive Explains (outcome : ε → ρ → τ → τ → Prop) : List ε → List ρ → τ → τ → Prop
  | nil (t : τ) : Explains outcome [] [] t t
  | cons {e : ε} {r : ρ} {es : List ε} {rs : List ρ} {t t₁ t₂ : τ} (h : outcome e r t t₁)
      (hrest : Explains outcome es rs t₁ t₂) : Explains outcome (e :: es) (r :: rs) t t₂

variable {step : ε → σ → ρ × σ} {outcome : ε → ρ → τ → τ → Prop}

theorem explains_runEvents {R : σ → τ → Prop}
    (hstep : ∀ e s t, R s t → ∃ t', outcome e (step e s).1 t t' ∧ R (step e s).2 t')
    (es : List ε) {s : σ} {t : τ} (h : R s t) :
    ∃ t', Explains outcome es (runEvents step es s).1 t t' ∧ R (runEvents step es s).2 t' := by
  induction es generalizing s t with
  | nil => exact ⟨t, .nil t, h⟩
  | cons e es ih =>
    obtain ⟨t₁, hfirst, h₁⟩ := hstep e s t h
    obtain ⟨t', hrest, h'⟩ := ih h₁
    exact ⟨t', .cons hfirst hrest, h'⟩

/-- What every outcome of a run keeps is kept by what explains it. -/
theorem Explains.invariant {I : τ → Prop} {es : List ε} {rs : List ρ} {t t' : τ}
    (h : Explains outcome es rs t t')
    (hkeeps : ∀ e ∈ es, ∀ r t t', outcome e r t t' → I t → I t') (ht : I t) : I t' := by
  induction h with
  | nil => exact ht
  | cons hfirst _ ih =>
    exact ih (fun e he => hkeeps e (List.mem_cons_of_mem _ he))
      (hkeeps _ List.mem_cons_self _ _ _ hfirst ht)

theorem Explains.append {es fs : List ε} {rs qs : List ρ} {t t₁ t₂ : τ}
    (h : Explains outcome es rs t t₁) (h' : Explains outcome fs qs t₁ t₂) :
    Explains outcome (es ++ fs) (rs ++ qs) t t₂ := by
  induction h with
  | nil => exact h'
  | cons hfirst _ ih => exact .cons hfirst (ih h')

/-- Where every step is a step of an abstract system on the images of the states, so is a run; the
abstract run says which steps are considered. -/
theorem runEvents_map (image : σ → τ) (answer : α → ρ) {step' : ε → τ → α × τ} {I : σ → Prop}
    {P : ε → τ → Prop} {es : List ε} {s : σ} (h : Along step' P es (image s)) (hs : I s)
    (hstep : ∀ e s, I s → P e (image s) → I (step e s).2 ∧
      (step e s).1 = answer (step' e (image s)).1 ∧ image (step e s).2 = (step' e (image s)).2) :
    I (runEvents step es s).2 ∧
      (runEvents step es s).1 = (runEvents step' es (image s)).1.map answer ∧
      image (runEvents step es s).2 = (runEvents step' es (image s)).2 := by
  induction es generalizing s with
  | nil => exact ⟨hs, rfl, rfl⟩
  | cons e es ih =>
    obtain ⟨hnext, hanswer, himage⟩ := hstep e s hs h.1
    have hrest := h.2
    rw [← himage] at hrest
    obtain ⟨hlast, hanswers, hfinal⟩ := ih hrest hnext
    rw [himage] at hanswers hfinal
    refine ⟨hlast, ?_, hfinal⟩
    simp only [runEvents, hanswer, hanswers, List.map_cons]

/-! ## Runs that end early -/

/-- The answers explain the events in order, up to where something ended them. -/
def ExplainsPart (outcome : ε → ρ → τ → τ → Prop) (es : List ε) (whole : Prop) (rs : List ρ)
    (t t' : τ) : Prop :=
  ∃ es', es' <+: es ∧ (whole → es' = es) ∧ Explains outcome es' rs t t'

namespace ExplainsPart

variable {es fs : List ε} {rs qs : List ρ} {whole whole' : Prop} {t t₁ t₂ : τ}

theorem nil (whole : Prop) (t : τ) : ExplainsPart outcome [] whole [] t t :=
  ⟨[], List.prefix_rfl, fun _ => rfl, .nil t⟩

theorem single {e : ε} {r : ρ} (whole : Prop) (h : outcome e r t t₁) :
    ExplainsPart outcome [e] whole [r] t t₁ :=
  ⟨[e], List.prefix_rfl, fun _ => rfl, .cons h (.nil t₁)⟩

theorem outcome_of_single {e : ε} {r : ρ} (h : ExplainsPart outcome [e] whole [r] t t₁) :
    outcome e r t t₁ := by
  obtain ⟨es', hfirst, _, hexplains⟩ := h
  cases hexplains with
  | cons hstep hrest =>
    cases hrest
    obtain rfl := (List.cons_prefix_cons.mp hfirst).1
    exact hstep

theorem weaken (h : ExplainsPart outcome es whole rs t t₁) (hwhole : whole' → whole) :
    ExplainsPart outcome es whole' rs t t₁ := by
  obtain ⟨es', hfirst, hes, hexplains⟩ := h
  exact ⟨es', hfirst, fun h => hes (hwhole h), hexplains⟩

/-- What ends early stays the first part of what was to follow. -/
theorem cut (h : ExplainsPart outcome es whole rs t t₁) (hcut : ¬ whole') (fs : List ε) :
    ExplainsPart outcome (es ++ fs) whole' rs t t₁ := by
  obtain ⟨es', hfirst, _, hexplains⟩ := h
  exact ⟨es', hfirst.trans (List.prefix_append es fs), fun hwhole => absurd hwhole hcut, hexplains⟩

theorem append (h : ExplainsPart outcome es whole rs t t₁) (hwhole : whole)
    (h' : ExplainsPart outcome fs whole' qs t₁ t₂) :
    ExplainsPart outcome (es ++ fs) whole' (rs ++ qs) t t₂ := by
  obtain ⟨es', _, hes, hexplains⟩ := h
  obtain ⟨fs', hfirst, hfs, hexplains'⟩ := h'
  rw [hes hwhole] at hexplains
  refine ⟨es ++ fs', (List.prefix_append_right_inj es).mpr hfirst, ?_, hexplains.append hexplains'⟩
  intro h
  rw [hfs h]

/-- What every outcome keeps is kept. -/
theorem invariant {I : τ → Prop} (h : ExplainsPart outcome es whole rs t t₁)
    (hkeeps : ∀ e ∈ es, ∀ r t t', outcome e r t t' → I t → I t') (ht : I t) : I t₁ := by
  obtain ⟨es', hfirst, _, hexplains⟩ := h
  exact hexplains.invariant (fun e he => hkeeps e (hfirst.subset he)) ht

end ExplainsPart

/-! ## Silent steps -/

/-- What a run does for the abstract system: some steps are events of it, the others are silent. -/
def visible {ω : Type} (step : ε → σ → ρ × σ) (view : ε → σ → Option ω) : List ε → σ → List ω
  | [], _ => []
  | e :: es, s => (view e s).toList ++ visible step view es (step e s).2

/-- Where the visible steps turn a flag over and the silent ones leave it, the values it takes
alternate, and the last one is its value at the end. -/
theorem visible_alternates {view : ε → σ → Option Bool} {flag : σ → Bool} {I : σ → Prop}
    (hkeeps : ∀ e s, I s → I (step e s).2)
    (hflag : ∀ e s, flag (step e s).2 = (view e s).getD (flag s))
    (hturns : ∀ e s b, I s → view e s = some b → flag s ≠ b) (es : List ε) {s : σ} (hs : I s) :
    (flag s :: visible step view es s).IsChain (· ≠ ·) ∧
      (visible step view es s).getLastD (flag s) = flag (runEvents step es s).2 := by
  induction es generalizing s with
  | nil => exact ⟨.singleton _, rfl⟩
  | cons e es ih =>
    obtain ⟨hchain, hlast⟩ := ih (hkeeps e s hs)
    have hnext := hflag e s
    cases hview : view e s with
    | none =>
      rw [hview, Option.getD_none] at hnext
      rw [hnext] at hchain hlast
      simp only [visible, hview, Option.toList_none, List.nil_append]
      exact ⟨hchain, hlast⟩
    | some b =>
      rw [hview, Option.getD_some] at hnext
      rw [hnext] at hchain hlast
      simp only [visible, hview, Option.toList_some, List.singleton_append]
      exact ⟨.cons_cons (hturns e s b hs hview) hchain, by rw [List.getLastD_cons]; exact hlast⟩

/-- Where silent steps keep the relation and the others have outcomes, every run is explained by
what is visible of it. -/
theorem explains_visible {ω : Type} {view : ε → σ → Option ω} {outcome : ω → α → τ → τ → Prop}
    {R : σ → τ → Prop} (hsilent : ∀ e s t, R s t → view e s = none → R (step e s).2 t)
    (hvisible : ∀ e s t o, R s t → view e s = some o →
      ∃ r t', outcome o r t t' ∧ R (step e s).2 t') (es : List ε) {s : σ} {t : τ} (h : R s t) :
    ∃ rs t', Explains outcome (visible step view es s) rs t t' ∧ R (runEvents step es s).2 t' := by
  induction es generalizing s t with
  | nil => exact ⟨[], t, .nil t, h⟩
  | cons e es ih =>
    cases hview : view e s with
    | none =>
      obtain ⟨rs, t', hrest, h'⟩ := ih (hsilent e s t h hview)
      refine ⟨rs, t', ?_, h'⟩
      simpa only [visible, hview, Option.toList_none, List.nil_append] using hrest
    | some o =>
      obtain ⟨r, t₁, hfirst, h₁⟩ := hvisible e s t o h hview
      obtain ⟨rs, t', hrest, h'⟩ := ih h₁
      refine ⟨r :: rs, t', ?_, h'⟩
      simpa only [visible, hview, Option.toList_some, List.singleton_append] using
        Explains.cons hfirst hrest

end DblService.Framework
