import Mathlib
import Elasto.Brick.Initialize
import Elasto.Proofs.Except

/-! # Work on a workbench

How a run of brick work reads: a bind runs its second part on the workbench the first left,
and an edit of the description either replaces it or fails with the workbench untouched.

How the lookups of a description move: a declaration changes what one name is declared as,
setting an attribute changes one attribute. `Description.Frame d d' vs as` says that `d'`
answers every lookup outside the variables `vs` and the attributes `as` as `d` does, so a
check made on `d` still holds after a sequence of changes for every name the sequence did
not touch.
-/

namespace Elasto.Brick.Build

open Elasto.Behaviour

variable {α β : Type}

theorem run_bind (m : Build α) (k : α → Build β) (w : Workbench) :
    (m >>= k).run w = match m.run w with
      | (.ok a, w') => (k a).run w'
      | (.error e, w') => (.error e, w') := by
  simp only [run, ExceptT.run_bind, StateT.run_bind]
  rcases h : (ExceptT.run m).run w with ⟨_ | _, _⟩ <;> rfl

@[simp] theorem run_pure (a : α) (w : Workbench) : (pure a : Build α).run w = (.ok a, w) := rfl

@[simp] theorem run_brick (w : Workbench) : brick.run w = (.ok w.brick, w) := rfl

@[simp] theorem run_description (w : Workbench) : description.run w = (.ok w.description, w) :=
  rfl

@[simp] theorem run_ofExcept (x : Except BrickError α) (w : Workbench) :
    (ofExcept x).run w = (x, w) := by
  cases x <;> rfl

@[simp] theorem run_throw (e : BrickError) (w : Workbench) :
    (throw e : Build α).run w = (.error e, w) := rfl

/-- An edit replaces the description when it succeeds and touches nothing when it fails. -/
@[simp] theorem run_edit (f : Description → Except BrickError Description) (w : Workbench) :
    (edit f).run w = match f w.description with
      | .ok d => (.ok (), { w with description := d })
      | .error e => (.error e, w) := by
  rw [edit, run_bind]
  show (ofExcept (f w.description) >>= fun d => set { w with description := d }).run w = _
  rw [run_bind, run_ofExcept]
  cases f w.description <;> rfl

@[simp] theorem run_appendBlock (kind : Code.BlockKind) (b : Code.Block) (w : Workbench) :
    (appendBlock kind b).run w =
      (.ok (), { w with description := w.description.appendBlock kind b }) := rfl

@[simp] theorem run_setBrick (b : Brick) (w : Workbench) :
    (setBrick b).run w = (.ok (), { w with brick := b }) := rfl

end Elasto.Brick.Build

namespace Elasto.Behaviour.Description

/-- `d'` answers every lookup of a variable outside `vs` and of an attribute outside `as` as
`d` does, and has the same code blocks. -/
structure Frame (d d' : Description) (vs as : List String) : Prop where
  declared_eq : ∀ n, n ∉ vs → d'.declared? n = d.declared? n
  attribute_eq : ∀ n, n ∉ as → d'.attribute? n = d.attribute? n
  blocks_eq : d'.blocks = d.blocks

namespace Frame

variable {d d₁ d₂ : Description} {vs vs' as as' : List String}

theorem refl (d : Description) : Frame d d vs as :=
  ⟨fun _ _ => rfl, fun _ _ => rfl, rfl⟩

theorem trans (h₁ : Frame d d₁ vs as) (h₂ : Frame d₁ d₂ vs' as') :
    Frame d d₂ (vs ++ vs') (as ++ as') := by
  constructor
  · intro n hn
    rw [List.mem_append, not_or] at hn
    rw [h₂.declared_eq n hn.2, h₁.declared_eq n hn.1]
  · intro n hn
    rw [List.mem_append, not_or] at hn
    rw [h₂.attribute_eq n hn.2, h₁.attribute_eq n hn.1]
  · rw [h₂.blocks_eq, h₁.blocks_eq]

theorem mono (h : Frame d d₁ vs as) (hv : vs ⊆ vs') (ha : as ⊆ as') : Frame d d₁ vs' as' :=
  ⟨fun n hn => h.declared_eq n fun hm => hn (hv hm),
    fun n hn => h.attribute_eq n fun hm => hn (ha hm), h.blocks_eq⟩

theorem hasVariable (h : Frame d d₁ vs as) {n : String} (hn : n ∉ vs) :
    d₁.hasVariable n = d.hasVariable n := by
  rw [hasVariable_eq_isSome_declared?, hasVariable_eq_isSome_declared?, h.declared_eq n hn]

end Frame

theorem attribute?_of_declare {d d' : Description} {c : Category} {v : Variable}
    (h : d.declare c v = .ok d') (n : String) : d'.attribute? n = d.attribute? n := by
  obtain ⟨-, rfl⟩ := declare_eq_ok_iff.mp h
  rfl

theorem declared?_of_declare {d d' : Description} {c : Category} {v : Variable}
    (h : d.declare c v = .ok d') {n : String} (hn : n ≠ v.name) :
    d'.declared? n = d.declared? n := by
  obtain ⟨-, rfl⟩ := declare_eq_ok_iff.mp h
  have hv : (v.name == n) = false := by simpa using Ne.symm hn
  simp [declared?, List.find?_append, hv]

theorem frame_of_declare {d d' : Description} {c : Category} {v : Variable}
    (h : d.declare c v = .ok d') : Frame d d' [v.name] [] := by
  refine ⟨fun _ hn => declared?_of_declare h fun he => hn (he ▸ List.mem_singleton_self _),
    fun n _ => attribute?_of_declare h n, ?_⟩
  obtain ⟨-, rfl⟩ := declare_eq_ok_iff.mp h
  rfl

theorem declare_eq_ok_of_free {d : Description} {c : Category} {v : Variable}
    (h : d.hasVariable v.name = false) : ∃ d', d.declare c v = .ok d' ∧ Frame d d' [v.name] [] :=
  let hd := declare_eq_ok_iff.mpr ⟨h, rfl⟩
  ⟨_, hd, frame_of_declare hd⟩

theorem find?_insertAttribute_of_ne {k n : String} (a : Attribute)
    (l : List (String × Attribute)) (h : k ≠ n) :
    (insertAttribute k a l).find? (·.1 == n) = l.find? (·.1 == n) := by
  induction l with
  | nil => simp [insertAttribute, h]
  | cons p rest ih =>
    obtain ⟨k', b⟩ := p
    simp only [insertAttribute]
    split_ifs with hlt heq
    · simp [List.find?_cons, h]
    · subst heq
      simp [h]
    · simp [List.find?_cons, ih]

theorem setAttribute_eq_ok {d : Description} {k : String} {a : Attribute}
    (h : ∀ e, d.attribute? k = some e → e.same a = true) : ∃ d', d.setAttribute k a = .ok d' := by
  unfold setAttribute
  rcases hk : d.attribute? k with _ | e
  · exact ⟨_, rfl⟩
  · exact ⟨d, by simp [h e hk]⟩

theorem frame_of_setAttribute {d d' : Description} {k : String} {a : Attribute}
    (h : d.setAttribute k a = .ok d') : Frame d d' [] [k] := by
  unfold setAttribute at h
  split at h
  · -- already set: the description is kept, or the change refused
    split at h
    · cases h
      exact Frame.refl d
    · cases h
  · cases h
    refine ⟨fun _ _ => rfl, fun n hn => ?_, rfl⟩
    have hkn : k ≠ n := fun hk => hn (hk ▸ List.mem_singleton_self k)
    simp only [attribute?, find?_insertAttribute_of_ne a _ hkn]

end Elasto.Behaviour.Description

namespace Elasto.Brick

open Elasto.Behaviour Description

theorem liftBehaviour_eq_ok {α : Type} {x : Except BehaviourError α} {a : α} :
    liftBehaviour x = .ok a ↔ x = .ok a := by
  cases x <;> simp [liftBehaviour, Except.mapError]

theorem checkReusable_congr {d d' : Description} {c : Category} {t : VarType} {name : String}
    (h : d'.declared? name = d.declared? name) :
    checkReusable d' c t name = checkReusable d c t name := by
  simp only [checkReusable, h]

theorem frame_of_declareIfAbsent {d : Description} {c : Category} {v : Variable}
    (h : checkReusable d c v.type v.name = .ok ()) :
    ∃ d', declareIfAbsent d c v = .ok d' ∧ Frame d d' [v.name] [] := by
  unfold checkReusable at h
  unfold declareIfAbsent
  rcases hv : d.declared? v.name with _ | ⟨c', w⟩
  · -- a free name is declared
    have hfree : d.hasVariable v.name = false := by simp [hasVariable_eq_isSome_declared?, hv]
    have hd : d.declare c v = .ok { d with declarations := d.declarations ++ [(c, v)] } :=
      declare_eq_ok_iff.mpr ⟨hfree, rfl⟩
    exact ⟨_, liftBehaviour_eq_ok.mpr hd, frame_of_declare hd⟩
  · -- a name declared as needed is reused
    rw [hv] at h
    have hsame : c' = c ∧ w.type = v.type := by
      by_contra hne
      simp [hne] at h
    exact ⟨d, by simp [hsame], Frame.refl d⟩

theorem checkAttributes_cons {d : Description} {k : String} {a : Attribute}
    {rest : List (String × Attribute)} :
    checkAttributes d ((k, a) :: rest) = .ok () ↔
      (∀ e, d.attribute? k = some e → e.same a = true) ∧ checkAttributes d rest = .ok () := by
  simp only [checkAttributes]
  rcases hk : d.attribute? k with _ | e
  · simp [hk, bind, Except.bind]
  · by_cases hs : e.same a = true <;> simp [hk, hs, bind, Except.bind]

theorem checkAttributes_of_congr {d d' : Description} {as : List (String × Attribute)}
    (hc : checkAttributes d as = .ok ()) (h : ∀ p ∈ as, d'.attribute? p.1 = d.attribute? p.1) :
    checkAttributes d' as = .ok () := by
  induction as with
  | nil => rfl
  | cons p rest ih =>
    obtain ⟨k, a⟩ := p
    obtain ⟨hk, hrest⟩ := checkAttributes_cons.mp hc
    refine checkAttributes_cons.mpr ⟨fun e he => hk e ?_, ih hrest fun q hq => h q (.tail _ hq)⟩
    rw [← h (k, a) List.mem_cons_self, he]

theorem frame_of_setAttributes {as : List (String × Attribute)} {d : Description}
    (hc : checkAttributes d as = .ok ()) (hn : (as.map Prod.fst).Nodup) :
    ∃ d', setAttributes d as = .ok d' ∧ Frame d d' [] (as.map Prod.fst) := by
  induction as generalizing d with
  | nil => exact ⟨d, rfl, Frame.refl d⟩
  | cons p rest ih =>
    obtain ⟨k, a⟩ := p
    rw [List.map_cons, List.nodup_cons] at hn
    obtain ⟨hk, hrest⟩ := checkAttributes_cons.mp hc
    obtain ⟨d₁, hd₁⟩ := setAttribute_eq_ok hk
    have hf₁ := frame_of_setAttribute hd₁
    -- the rest is checked on the first change as it was on the start: `k` is not among them
    have hc₁ : checkAttributes d₁ rest = .ok () := by
      refine checkAttributes_of_congr hrest fun q hq => hf₁.attribute_eq q.1 fun hm => hn.1 ?_
      rw [← List.mem_singleton.mp hm]
      exact List.mem_map.mpr ⟨q, hq, rfl⟩
    obtain ⟨d₂, hd₂, hf₂⟩ := ih hc₁ hn.2
    refine ⟨d₂, ?_, hf₁.trans hf₂⟩
    simp only [setAttributes, List.foldlM_cons, liftBehaviour_eq_ok.mpr hd₁, except_ok_bind]
    exact hd₂

theorem run_forIn_setAttribute {as : List (String × Attribute)} {w : Workbench} {d' : Description}
    {f : String × Attribute → PUnit → Build (ForInStep PUnit)}
    (hf : ∀ p, f p ⟨⟩ =
      (Build.edit fun d => liftBehaviour (d.setAttribute p.1 p.2)) >>= fun _ => pure (.yield ⟨⟩))
    (h : setAttributes w.description as = .ok d') :
    (forIn as ⟨⟩ f).run w = (.ok ⟨⟩, { w with description := d' }) := by
  induction as generalizing w with
  | nil =>
    cases h
    rfl
  | cons p rest ih =>
    simp only [setAttributes, List.foldlM_cons] at h
    obtain ⟨d₁, hd₁, h⟩ := except_bind_eq_ok.mp h
    rw [List.forIn_cons, Build.run_bind, hf, Build.run_bind, Build.run_edit, hd₁]
    exact ih (w := { w with description := d₁ }) h

end Elasto.Brick
