import Mathlib
import Elasto.Proofs.Workbench

/-!
# A description only grows

Bricks change a description by four edits: they declare variables, set attributes, append
code blocks and add contributions to blocks of the implicit Jacobian; setting up a behaviour
also sets its modelling hypotheses and its elastic symmetry. An edit is made in place. A
contribution makes its Jacobian block present before it checks the owner, and a refusal keeps
what was written; but a refused block held the owner, so it was present already, and a
refused edit leaves the description as it was (`Description.edit_of_error`).

Every edit but the two settings only extends the description (`Description.extends_edit`):
the declarations, the code blocks of each kind and the contributions to each Jacobian block
gain entries at their end, and no attribute changes its value. What an edit does to one
Jacobian block is `Edit.contribute`; a block holds the contributions that its edits
recorded, one after the other (`Description.contributions_edits`).

Main statement (`Description.edits_new_grows`): along any run of edits from a new
description, the declared names stay distinct, the temperature stays an external state
variable and `theta`, in implicit schemes, a parameter; in every Jacobian block the owners
are distinct, no code is empty and the block's code is theirs joined by line breaks, in the
order they were recorded.
-/

namespace Elasto.Behaviour

open Elasto.Code

/-- The changes made to a description while bricks are compiled into it. -/
inductive Edit where
  | declare (c : Category) (v : Variable)
  | setAttribute (name : String) (a : Attribute)
  | appendBlock (kind : BlockKind) (b : Block)
  | addJacobianContribution (owner equation target code : String)
  | setHypotheses (hs : List Hypothesis)
  | setSymmetry (s : Symmetry)

namespace Edit

/-- Whether the edit sets the modelling hypotheses or the elastic symmetry. -/
def isSetting : Edit → Bool
  | .setHypotheses _ | .setSymmetry _ => true
  | _ => false

/-- What an edit does to the contributions of the Jacobian block `key`, which has none until
its first contribution: an owner's code is added once and at the end, empty code adds
nothing, and a contribution of an owner already recorded is refused. -/
def contribute (key : String × String) (acc : Option (List Contribution)) :
    Edit → Option (List Contribution)
  | .addJacobianContribution owner equation target code =>
    if (equation, target) = key then
      let cs := acc.getD []
      if cs.any (·.owner == owner) then acc
      else some (if code.isEmpty then cs else cs ++ [⟨owner, code⟩])
    else acc
  | _ => acc

/-- The contributions of a block are recorded once per owner, and none is empty. -/
def WellRecorded (acc : Option (List Contribution)) : Prop :=
  ∀ cs, acc = some cs → (cs.map (·.owner)).Nodup ∧ ∀ c ∈ cs, c.code ≠ ""

theorem wellRecorded_none : WellRecorded none := by
  simp [WellRecorded]

theorem wellRecorded_contribute {key : String × String} {acc : Option (List Contribution)}
    (h : WellRecorded acc) (e : Edit) : WellRecorded (e.contribute key acc) := by
  cases e with
  | addJacobianContribution owner equation target code =>
    simp only [contribute]
    split_ifs with hkey hany hempty
    · exact h
    · -- no contribution is added: the block is created with what it had
      intro cs hcs
      cases hacc : acc with
      | none =>
        obtain rfl : [] = cs := by simpa [hacc] using hcs
        simp
      | some ds =>
        obtain rfl : ds = cs := by simpa [hacc] using hcs
        exact h ds hacc
    · -- the owner is new and its code is not empty
      intro cs hcs
      obtain rfl := Option.some.inj hcs
      have hold := h (acc.getD [])
      cases hacc : acc with
      | none => simp_all
      | some ds =>
        obtain ⟨hnd, hcode⟩ := hold (by simp [hacc])
        simp only [hacc, Option.getD_some, List.any_eq_true, beq_iff_eq, not_exists, not_and]
          at hany hnd hcode ⊢
        refine ⟨?_, ?_⟩
        · rw [List.map_append, List.nodup_append]
          simp only [List.map_cons, List.map_nil, List.nodup_cons, List.not_mem_nil,
            not_false_eq_true, List.nodup_nil, and_self, List.mem_singleton, true_and]
          refine ⟨hnd, fun o ho o' ho' => ?_⟩
          obtain ⟨c, hc, rfl⟩ := List.mem_map.mp ho
          rw [ho']
          exact hany c hc
        · intro c hc
          rcases List.mem_append.mp hc with hc | hc
          · exact hcode c hc
          · rw [List.mem_singleton.mp hc]
            simpa using hempty
    · exact h
  | declare | setAttribute | appendBlock | setHypotheses | setSymmetry => exact h

theorem contribute_of_some {key : String × String} {cs : List Contribution} (e : Edit) :
    ∃ cs', e.contribute key (some cs) = some cs' ∧ cs <+: cs' := by
  cases e with
  | addJacobianContribution owner equation target code =>
    simp only [contribute, Option.getD_some]
    split_ifs
    · exact ⟨cs, rfl, List.prefix_refl cs⟩
    · exact ⟨cs, rfl, List.prefix_refl cs⟩
    · exact ⟨_, rfl, List.prefix_append cs _⟩
    · exact ⟨cs, rfl, List.prefix_refl cs⟩
  | declare | setAttribute | appendBlock | setHypotheses | setSymmetry =>
    exact ⟨cs, rfl, List.prefix_refl cs⟩

end Edit

namespace Description

/-- The edit applied to the description, or the error that refuses it. -/
def edit? (d : Description) : Edit → Except BehaviourError Description
  | .declare c v => d.declare c v
  | .setAttribute name a => d.setAttribute name a
  | .appendBlock kind b => .ok (d.appendBlock kind b)
  | .addJacobianContribution owner equation target code =>
    d.addJacobianContribution owner equation target code
  | .setHypotheses hs => .ok { d with hypotheses := hs }
  | .setSymmetry s => .ok { d with symmetry := s }

/-- What an edit writes before anything is checked: a contribution makes its Jacobian block
present; the other edits check first. -/
def prepare (d : Description) : Edit → Description
  | .addJacobianContribution _ equation target _ => d.jacobianEntry (equation, target)
  | _ => d

/-- The description an edit leaves in place: what the edit made, or, when it is refused, what
it wrote before the refusal. -/
def edit (d : Description) (e : Edit) : Description :=
  match d.edit? e with
  | .ok d' => d'
  | .error _ => d.prepare e

/-- The description a run of edits leaves. -/
def edits (d : Description) (es : List Edit) : Description := es.foldl edit d

theorem edit_of_ok {d d' : Description} {e : Edit} (h : d.edit? e = .ok d') : d.edit e = d' := by
  simp [edit, h]

@[simp] theorem edits_nil (d : Description) : d.edits [] = d := rfl

@[simp] theorem edits_cons (d : Description) (e : Edit) (es : List Edit) :
    d.edits (e :: es) = (d.edit e).edits es := rfl

section Mutators

variable {d d' : Description}

theorem setAttribute_eq_ok_cases {k : String} {a : Attribute} (h : d.setAttribute k a = .ok d') :
    d' = d ∨ d.attribute? k = none ∧ d' = { d with attributes := insertAttribute k a d.attributes } := by
  unfold setAttribute at h
  split at h
  · split at h
    · exact .inl (Except.ok.inj h).symm
    · cases h
  · exact .inr ⟨by assumption, (Except.ok.inj h).symm⟩

theorem find?_putContributions (k key : String × String) (cs : List Contribution)
    (l : List ((String × String) × List Contribution)) :
    (putContributions k cs l).find? (·.1 == key) =
      if k = key then some (k, cs) else l.find? (·.1 == key) := by
  induction l with
  | nil => by_cases h : k = key <;> simp [putContributions, h]
  | cons entry rest ih =>
    obtain ⟨k', ds⟩ := entry
    by_cases hlt : (k.1 < k'.1 || (k.1 = k'.1 && k.2 < k'.2)) = true
    · -- inserted in front
      rw [putContributions, if_pos hlt]
      by_cases h : k = key <;> simp [h]
    · by_cases heq : k = k'
      · -- replaces the block's entry
        subst heq
        rw [putContributions, if_neg hlt, if_pos rfl]
        by_cases h : k = key <;> simp [h]
      · rw [putContributions, if_neg hlt, if_neg heq]
        by_cases h : k = key
        · subst h
          simp [Ne.symm heq, ih]
        · by_cases hk : k' = key <;> simp [ih, h, hk]

theorem contributions_putContributions (k key : String × String) (cs : List Contribution) :
    { d with jacobian := putContributions k cs d.jacobian }.contributions key =
      if k = key then some cs else d.contributions key := by
  by_cases h : k = key <;> simp [contributions, find?_putContributions, h]

theorem putContributions_putContributions (k : String × String) (cs cs' : List Contribution) :
    ∀ l, putContributions k cs (putContributions k cs' l) = putContributions k cs l
  | [] => by simp [putContributions]
  | (k', ds) :: rest => by
    by_cases hlt : (decide (k.1 < k'.1) || (decide (k.1 = k'.1) && decide (k.2 < k'.2))) = true
    · -- put in front, then replaced at its own entry
      simp only [putContributions, hlt, lt_self_iff_false, decide_false, decide_true,
        Bool.false_or, Bool.true_and, Bool.false_eq_true, ↓reduceIte]
    · by_cases heq : k = k'
      · subst heq
        simp only [putContributions, lt_self_iff_false, decide_false, decide_true, Bool.false_or,
          Bool.true_and, Bool.false_eq_true, ↓reduceIte]
      · simp only [putContributions, hlt, heq, Bool.false_eq_true, ↓reduceIte,
          putContributions_putContributions k cs cs' rest]

theorem contributions_jacobianEntry (k key : String × String) :
    (d.jacobianEntry k).contributions key =
      if k = key then some ((d.contributions k).getD []) else d.contributions key := by
  unfold jacobianEntry
  split
  · rename_i cs hcs
    by_cases h : k = key
    · subst h
      simp [hcs]
    · simp [h]
  · rename_i hnone
    rw [contributions_putContributions]
    by_cases h : k = key
    · subst h
      simp [hnone]
    · simp [h]

theorem jacobianEntry_putContributions (k : String × String) (cs : List Contribution) :
    { d.jacobianEntry k with jacobian := putContributions k cs (d.jacobianEntry k).jacobian } =
      { d with jacobian := putContributions k cs d.jacobian } := by
  unfold jacobianEntry
  split
  · rfl
  · simp [putContributions_putContributions]

theorem addJacobianContribution_eq_ok {owner equation target code : String}
    (h : d.addJacobianContribution owner equation target code = .ok d') :
    ∃ cs, d' = { d with jacobian := putContributions (equation, target) cs d.jacobian } := by
  simp only [addJacobianContribution] at h
  split_ifs at h <;>
    exact ⟨_, (Except.ok.inj h).symm.trans (jacobianEntry_putContributions _ _)⟩

/-- The block a refused contribution makes present was present already: it holds the owner
refused. So the entry made before the check cannot be seen after a refusal. -/
theorem jacobianEntry_of_refused {owner equation target code : String} {err : BehaviourError}
    (h : d.addJacobianContribution owner equation target code = .error err) :
    d.jacobianEntry (equation, target) = d := by
  unfold jacobianEntry
  split
  · rfl
  · rename_i hnone
    simp [addJacobianContribution, contributions_jacobianEntry, hnone] at h

end Mutators

/-- A refused edit leaves the description as it was. -/
theorem edit_of_error {d : Description} {e : Edit} {err : BehaviourError}
    (h : d.edit? e = .error err) : d.edit e = d := by
  cases e with
  | addJacobianContribution owner equation target code =>
    rw [edit, h]
    exact jacobianEntry_of_refused h
  | declare | setAttribute | appendBlock | setHypotheses | setSymmetry =>
    rw [edit, h]
    rfl

/-! ### What one edit does -/

section Step

variable {d : Description} {e : Edit}

theorem declarations_edit (d : Description) (e : Edit) :
    (d.edit e).declarations = d.declarations ∨
      ∃ c v, d.hasVariable v.name = false ∧ (d.edit e).declarations = d.declarations ++ [(c, v)] := by
  rcases h : d.edit? e with err | d'
  · exact .inl (by rw [edit_of_error h])
  rw [edit_of_ok h]
  cases e with
  | declare c v =>
    obtain ⟨hfree, rfl⟩ := declare_eq_ok_iff.mp h
    exact .inr ⟨c, v, hfree, rfl⟩
  | setAttribute k a => rcases setAttribute_eq_ok_cases h with rfl | ⟨-, rfl⟩ <;> exact .inl rfl
  | addJacobianContribution owner equation target code =>
    obtain ⟨cs, rfl⟩ := addJacobianContribution_eq_ok h
    exact .inl rfl
  | appendBlock | setHypotheses | setSymmetry =>
    cases h
    exact .inl rfl

theorem blocks_edit (d : Description) (e : Edit) :
    (d.edit e).blocks = d.blocks ∨
      ∃ kind b, e = .appendBlock kind b ∧ (d.edit e).blocks = d.blocks ++ [(kind, b)] := by
  rcases h : d.edit? e with err | d'
  · exact .inl (by rw [edit_of_error h])
  rw [edit_of_ok h]
  cases e with
  | declare c v =>
    obtain ⟨-, rfl⟩ := declare_eq_ok_iff.mp h
    exact .inl rfl
  | setAttribute k a => rcases setAttribute_eq_ok_cases h with rfl | ⟨-, rfl⟩ <;> exact .inl rfl
  | addJacobianContribution owner equation target code =>
    obtain ⟨cs, rfl⟩ := addJacobianContribution_eq_ok h
    exact .inl rfl
  | appendBlock kind b =>
    cases h
    exact .inr ⟨kind, b, rfl, rfl⟩
  | setHypotheses | setSymmetry =>
    cases h
    exact .inl rfl

theorem contributions_edit (d : Description) (e : Edit) (key : String × String) :
    (d.edit e).contributions key = e.contribute key (d.contributions key) := by
  cases e with
  | addJacobianContribution owner equation target code =>
    by_cases hany : ((d.contributions (equation, target)).getD []).any (·.owner == owner) = true
    · -- refused: the block had the owner already, so the view keeps it too
      have h : d.edit? (.addJacobianContribution owner equation target code) =
          .error (.duplicateJacobianContribution owner equation target) := by
        simp [edit?, addJacobianContribution, contributions_jacobianEntry, hany]
      rw [edit_of_error h]
      by_cases hk : (equation, target) = key
      · subst hk
        simp [Edit.contribute, hany]
      · simp [Edit.contribute, hk]
    · simp only [edit, edit?, addJacobianContribution, contributions_jacobianEntry, if_true,
        Option.getD_some, if_neg hany, contributions_putContributions, Edit.contribute]
      by_cases hk : (equation, target) = key
      · subst hk
        simp [hany]
      · simp [hk]
  | declare c v =>
    rcases h : d.declare c v with err | d'
    · rw [edit_of_error (e := .declare c v) h]
      rfl
    · rw [edit_of_ok (e := .declare c v) h]
      obtain ⟨-, rfl⟩ := declare_eq_ok_iff.mp h
      simp [Edit.contribute, contributions]
  | setAttribute k a =>
    rcases h : d.setAttribute k a with err | d'
    · rw [edit_of_error (e := .setAttribute k a) h]
      rfl
    · rw [edit_of_ok (e := .setAttribute k a) h]
      rcases setAttribute_eq_ok_cases h with rfl | ⟨-, rfl⟩ <;>
        simp [Edit.contribute, contributions]
  | appendBlock kind b => simp [edit, edit?, appendBlock, Edit.contribute, contributions]
  | setHypotheses hs => simp [edit, edit?, Edit.contribute, contributions]
  | setSymmetry s => simp [edit, edit?, Edit.contribute, contributions]

theorem attribute?_edit {n : String} {a : Attribute} (h : d.attribute? n = some a) (e : Edit) :
    (d.edit e).attribute? n = some a := by
  rcases he : d.edit? e with err | d'
  · rwa [edit_of_error he]
  rw [edit_of_ok he]
  cases e with
  | declare c v => exact attribute?_of_declare he n ▸ h
  | setAttribute k a' =>
    rcases setAttribute_eq_ok_cases he with rfl | ⟨hk, rfl⟩
    · exact h
    · -- the new attribute was unset, so it is not `n`
      have hkn : k ≠ n := fun e => by rw [e, h] at hk; cases hk
      simpa [attribute?, find?_insertAttribute_of_ne a' _ hkn] using h
  | addJacobianContribution owner equation target code =>
    obtain ⟨cs, rfl⟩ := addJacobianContribution_eq_ok he
    exact h
  | appendBlock | setHypotheses | setSymmetry =>
    cases he
    exact h

theorem settings_edit (d : Description) (e : Edit) :
    (d.edit e).name = d.name ∧ (d.edit e).scheme = d.scheme ∧
      (e.isSetting = false →
        (d.edit e).hypotheses = d.hypotheses ∧ (d.edit e).symmetry = d.symmetry) := by
  rcases h : d.edit? e with err | d'
  · simp [edit_of_error h]
  rw [edit_of_ok h]
  cases e with
  | declare c v =>
    obtain ⟨-, rfl⟩ := declare_eq_ok_iff.mp h
    simp
  | setAttribute k a => rcases setAttribute_eq_ok_cases h with rfl | ⟨-, rfl⟩ <;> simp
  | addJacobianContribution owner equation target code =>
    obtain ⟨cs, rfl⟩ := addJacobianContribution_eq_ok h
    simp
  | appendBlock | setHypotheses | setSymmetry =>
    cases h
    simp [appendBlock, Edit.isSetting]

theorem blocksOf_prefix_edit (d : Description) (e : Edit) (kind : BlockKind) :
    d.blocksOf kind <+: (d.edit e).blocksOf kind := by
  have hb : d.blocks <+: (d.edit e).blocks := by
    rcases blocks_edit d e with h | ⟨_, _, -, h⟩
    · exact h ▸ List.prefix_refl _
    · exact h ▸ List.prefix_append _ _
  exact (hb.filter _).map _

theorem names_nodup_edit (h : (d.declarations.map (·.2.name)).Nodup) (e : Edit) :
    ((d.edit e).declarations.map (·.2.name)).Nodup := by
  rcases declarations_edit d e with hd | ⟨c, v, hfree, hd⟩ <;> rw [hd]
  · exact h
  · -- the declared name was free
    have hv : v.name ∉ d.declarations.map (·.2.name) := by
      simpa [hasVariable] using hfree
    rw [List.map_append, List.map_singleton]
    exact h.append (List.nodup_singleton _) (List.disjoint_singleton.mpr hv)

end Step

/-- `d'` extends `d`: the same name, scheme, hypotheses and symmetry; the declarations, the
code blocks of each kind and the contributions to each Jacobian block of `d`, followed by
more; every attribute of `d` with its value. -/
structure Extends (d d' : Description) : Prop where
  name_eq : d'.name = d.name
  scheme_eq : d'.scheme = d.scheme
  hypotheses_eq : d'.hypotheses = d.hypotheses
  symmetry_eq : d'.symmetry = d.symmetry
  declarations : d.declarations <+: d'.declarations
  blocksOf : ∀ kind, d.blocksOf kind <+: d'.blocksOf kind
  contributions : ∀ key cs, d.contributions key = some cs →
    ∃ cs', d'.contributions key = some cs' ∧ cs <+: cs'
  attribute_kept : ∀ n a, d.attribute? n = some a → d'.attribute? n = some a

theorem extends_edit (d : Description) {e : Edit} (he : e.isSetting = false) :
    Extends d (d.edit e) := by
  obtain ⟨hname, hscheme, hsettings⟩ := settings_edit d e
  obtain ⟨hhyp, hsym⟩ := hsettings he
  refine ⟨hname, hscheme, hhyp, hsym, ?_, blocksOf_prefix_edit d e, ?_,
    fun n a h => attribute?_edit h e⟩
  · rcases declarations_edit d e with h | ⟨_, _, -, h⟩
    · exact h ▸ List.prefix_refl _
    · exact h ▸ List.prefix_append _ _
  · intro key cs h
    rw [contributions_edit, h]
    exact Edit.contribute_of_some e

/-! ### What a run of edits does -/

theorem declarations_prefix_edits (d : Description) (es : List Edit) :
    d.declarations <+: (d.edits es).declarations := by
  induction es generalizing d with
  | nil => exact List.prefix_refl _
  | cons e es ih =>
    refine List.IsPrefix.trans ?_ (ih (d.edit e))
    rcases declarations_edit d e with h | ⟨_, _, -, h⟩
    · exact h ▸ List.prefix_refl _
    · exact h ▸ List.prefix_append _ _

theorem names_nodup_edits {d : Description} (h : (d.declarations.map (·.2.name)).Nodup)
    (es : List Edit) : ((d.edits es).declarations.map (·.2.name)).Nodup := by
  induction es generalizing d with
  | nil => exact h
  | cons e es ih => exact ih (names_nodup_edit h e)

/-- A Jacobian block holds the contributions its edits recorded, one after the other. -/
theorem contributions_edits (d : Description) (es : List Edit) (key : String × String) :
    (d.edits es).contributions key = es.foldl (Edit.contribute key) (d.contributions key) := by
  induction es generalizing d with
  | nil => rfl
  | cons e es ih => rw [edits_cons, ih, contributions_edit, List.foldl_cons]

theorem wellRecorded_foldl {key : String × String} {acc : Option (List Contribution)}
    (h : Edit.WellRecorded acc) (es : List Edit) :
    Edit.WellRecorded (es.foldl (Edit.contribute key) acc) := by
  induction es generalizing acc with
  | nil => exact h
  | cons e es ih => exact ih (Edit.wellRecorded_contribute h e)

theorem declared?_of_prefix_declarations {d d' : Description} (h : d.declarations <+: d'.declarations)
    {n : String} {p : Category × Variable} (hn : d.declared? n = some p) :
    d'.declared? n = some p := by
  obtain ⟨t, ht⟩ := h
  simp only [declared?, ← ht, List.find?_append] at hn ⊢
  rw [hn]
  rfl

theorem declared?_temperature_new (name : String) (scheme : Scheme) :
    ((new name scheme).declared? temperatureName).map (·.1) = some .externalStateVariable := by
  simp [new, declared?]

theorem declared?_theta_new (name : String) :
    ((new name .implicit).declared? thetaName).map (·.1) = some .parameter := by
  simp [new, declared?, temperatureName, thetaName]

theorem names_nodup_new (name : String) (scheme : Scheme) :
    ((new name scheme).declarations.map (·.2.name)).Nodup := by
  by_cases h : scheme = .implicit <;> simp [new, h, temperatureName, thetaName]

/-- A description reached by edits from a new one keeps its declared names distinct, the
temperature an external state variable and, in implicit schemes, `theta` a parameter; each
Jacobian block holds the contributions recorded one after the other, once per owner and none
empty, and its code is theirs joined by line breaks. Every edit but the two settings only
extends a description, and a refused edit leaves it as it was. -/
theorem edits_new_grows (name : String) (scheme : Scheme) (es : List Edit) :
    let d := (new name scheme).edits es
    ((d.declarations.map (·.2.name)).Nodup ∧
      (d.declared? temperatureName).map (·.1) = some .externalStateVariable ∧
      (scheme = .implicit → (d.declared? thetaName).map (·.1) = some .parameter)) ∧
    (∀ key, d.contributions key = es.foldl (Edit.contribute key) none ∧
      ∀ cs, d.contributions key = some cs →
        (cs.map (·.owner)).Nodup ∧ (∀ c ∈ cs, c.code ≠ "") ∧
        d.jacobianContribution key.1 key.2 = "\n".intercalate (cs.map (·.code))) ∧
    (∀ (d₀ : Description) (e : Edit), e.isSetting = false → Extends d₀ (d₀.edit e)) ∧
    (∀ (d₀ : Description) (e : Edit) (err : BehaviourError),
      d₀.edit? e = .error err → d₀.edit e = d₀) := by
  intro d
  have hpre := declarations_prefix_edits (new name scheme) es
  -- a new description has no Jacobian block
  have hrec : ∀ key, d.contributions key = es.foldl (Edit.contribute key) none := fun key => by
    rw [contributions_edits]
    rfl
  refine ⟨⟨names_nodup_edits (names_nodup_new name scheme) es, ?_, ?_⟩, fun key => ⟨hrec key, ?_⟩,
    fun d₀ _ he => extends_edit d₀ he, fun _ _ _ h => edit_of_error h⟩
  · obtain ⟨p, hp, hcat⟩ := Option.map_eq_some_iff.mp (declared?_temperature_new name scheme)
    rw [declared?_of_prefix_declarations hpre hp]
    simp [hcat]
  · rintro rfl
    obtain ⟨p, hp, hcat⟩ := Option.map_eq_some_iff.mp (declared?_theta_new name)
    rw [declared?_of_prefix_declarations hpre hp]
    simp [hcat]
  · intro cs hcs
    obtain ⟨hnd, hcode⟩ := wellRecorded_foldl Edit.wellRecorded_none es cs (hrec key ▸ hcs)
    exact ⟨hnd, hcode, by simp [jacobianContribution, hcs]⟩

/-- An owner whose first contribution to a block was empty may still contribute once: the
block then holds that code alone, and a third contribution of the owner is refused. -/
theorem edits_new_contribution_after_empty :
    let es : List Edit := [.addJacobianContribution "Hooke" "feel" "eel" "",
      .addJacobianContribution "Hooke" "feel" "eel" "df = D;"]
    let d := (new "B" .implicit).edits es
    (d.declared? thetaName).map (·.1) = some .parameter ∧
      d.contributions ("feel", "eel") = some [⟨"Hooke", "df = D;"⟩] ∧
      d.jacobianContribution "feel" "eel" = "df = D;" ∧
      Extends d (d.edit (.appendBlock .integrator { origin := "Hooke" })) ∧
      d.edit (.addJacobianContribution "Hooke" "feel" "eel" "df += D;") = d := by
  intro es d
  have h := edits_new_grows "B" .implicit es
  have hc : d.contributions ("feel", "eel") = some [⟨"Hooke", "df = D;"⟩] := by
    rw [((h.2.1 ("feel", "eel")).1)]
    rfl
  have hdup : d.edit? (.addJacobianContribution "Hooke" "feel" "eel" "df += D;") =
      .error (.duplicateJacobianContribution "Hooke" "feel" "eel") := by
    simp [edit?, addJacobianContribution, jacobianEntry, hc]
  exact ⟨h.1.2.2 rfl, hc, ((h.2.1 _).2 _ hc).2.2, h.2.2.1 d _ rfl, h.2.2.2 d _ _ hdup⟩

end Description

end Elasto.Behaviour
