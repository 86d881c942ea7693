import LiveFilter.Proofs.Failures
import LiveFilter.Proofs.Sql.Numbering

/-! # Paths that need the store

Evaluation goes through a filter from left to right and leaves nothing out, whatever the connectives
have found already. It stops at the first step that fails. So a filter with a path that leaves the
entity has no truth value, and the store is asked for exactly when such a path is where it stops.
-/

namespace LiveFilter

open Outcome (bind_eq_ok map_eq_ok bind_eq_error map_eq_error forM_eq_ok forM_eq_error)

/-- The entity alone tells what is behind the path: an own property, or the identifier behind a
single link that it carries. -/
inductive Entity.Resolves (entity : Entity) : PropertyPath → Prop
  | own (p : EntityProperty) : Resolves entity (.single (.entity p))
  | link {l : NavigationProperty} {id : Id} (hset : l.isSet = false)
      (hid : entity.links l = some id) : Resolves entity (.ofLinks [l] .id)

def Entity.FirstUnresolved (entity : Entity) (paths : List PropertyPath) (path : PropertyPath) :
    Prop :=
  ¬entity.Resolves path ∧
    ∃ front back, paths = front ++ path :: back ∧ ∀ p ∈ front, entity.Resolves p

namespace Live

/-- A step of evaluation: an expression is given its operand, or its truth in the place of a
condition. -/
inductive Step where
  | operand (e : Expression)
  | truth (e : Expression)

def Step.outcome (entity : Entity) : Step → Except FilterError Unit
  | operand e => (lower entity e).map fun _ => ()
  | truth e => (evaluate entity e).map fun _ => ()

def Step.path? : Step → Option PropertyPath
  | operand (.property p) => some p
  | _ => none

end Live

open Live (Step lower evaluate algebra)

/-- The steps to the operand of an expression, in the order in which they are made. -/
def Expression.steps : Expression → List Step
  | constant c => [.operand (constant c)]
  | property p => [.operand (property p)]
  | negate e => e.steps ++ [.operand (negate e)]
  | not e => e.steps ++ [.truth e, .operand (not e)]
  | arithmetic op l r => l.steps ++ (r.steps ++ [.operand (arithmetic op l r)])
  | compare op l r => l.steps ++ (r.steps ++ [.operand (compare op l r)])
  | logical op l r =>
      l.steps ++ .truth l :: (r.steps ++ [.truth r, .operand (logical op l r)])

theorem Expression.filterMap_steps (e : Expression) : e.steps.filterMap Step.path? = e.paths := by
  induction e with
  | constant c | property p => rfl
  | negate e ih | not e ih =>
      rw [steps, List.filterMap_append, ih]
      exact List.append_nil _
  | arithmetic op l r ihl ihr | compare op l r ihl ihr =>
      rw [steps, List.filterMap_append, List.filterMap_append, ihl, ihr]
      exact congrArg _ (List.append_nil _)
  | logical op l r ihl ihr =>
      rw [steps, List.filterMap_append, List.filterMap_cons_none rfl, List.filterMap_append, ihl,
        ihr]
      exact congrArg _ (List.append_nil _)

namespace Live

variable {entity : Entity} {e : Expression} {path : PropertyPath} {text : String}

theorem property_of_resolves (h : entity.Resolves path) : ∃ v, property entity path = .ok v := by
  cases h with
  | own p => exact ⟨_, rfl⟩
  | @link l id hset hid =>
      refine ⟨.ofId id, ?_⟩
      simp only [property, PropertyPath.ofLinks, List.map_cons, List.map_nil, hset, hid]
      rfl

theorem resolves_of_property {v : Value} (h : property entity path = .ok v) :
    entity.Resolves path := by
  unfold property at h
  split at h
  · exact .own _
  · split at h
    · cases h
    · split at h
      · rename_i hset _ id hid
        exact .link (Bool.eq_false_iff.2 hset) hid
      · cases h
  · cases h

theorem property_eq_error {err : FilterError} (h : property entity path = .error err) :
    err = .requiresStore path.display := by
  unfold property at h
  split at h
  · cases h
  · split at h
    · cases h
      rfl
    · split at h
      · cases h
      · cases h
        rfl
  · cases h
    rfl

theorem forM_last (entity : Entity) (s : Step) :
    forM [s] (Step.outcome entity) = s.outcome entity := by
  rw [List.forM_cons, List.forM_nil]
  exact bind_pure _

theorem forM_steps (entity : Entity) (e : Expression) :
    forM e.steps (Step.outcome entity) = (lower entity e).map fun _ => () := by
  induction e with
  | constant c => rfl
  | property p => exact forM_last entity (.operand (.property p))
  | negate e ih =>
      rw [Expression.steps, List.forM_append, ih, forM_last]
      exact Outcome.try_first (lower entity e) _
  | not e ih =>
      rw [Expression.steps, List.forM_append, List.forM_cons, ih, forM_last]
      exact Outcome.try_checked (lower entity e) (Rules.asCondition algebra) _
  | arithmetic op l r ihl ihr | compare op l r ihl ihr =>
      rw [Expression.steps, List.forM_append, List.forM_append, ihl, ihr, forM_last]
      exact Outcome.try_two (lower entity l) (lower entity r) _
  | logical op l r ihl ihr =>
      rw [Expression.steps, List.forM_append, List.forM_cons, List.forM_append, List.forM_cons, ihl,
        ihr, forM_last]
      exact Outcome.try_two_checked (lower entity l) (lower entity r)
        (Rules.asCondition algebra) (Rules.asCondition algebra) _

theorem outcome_of_lower {o : Operand Value Truth} (h : lower entity e = .ok o) :
    ∀ s ∈ e.steps, s.outcome entity = .ok () := by
  rw [← forM_eq_ok, forM_steps, h]
  rfl

theorem resolves_of_outcome (h : Step.outcome entity (.operand (.property path)) = .ok ()) :
    entity.Resolves path := by
  obtain ⟨o, ho, _⟩ := map_eq_ok.1 h
  obtain ⟨v, hv, _⟩ := map_eq_ok.1 ho
  exact resolves_of_property hv

theorem resolves_of_steps {steps : List Step} (h : ∀ s ∈ steps, s.outcome entity = .ok ()) :
    ∀ p ∈ steps.filterMap Step.path?, entity.Resolves p := by
  intro p hp
  obtain ⟨s, hs, hpath⟩ := List.mem_filterMap.1 hp
  unfold Step.path? at hpath
  split at hpath
  · cases hpath
    exact resolves_of_outcome (h _ hs)
  · cases hpath

/-- The steps succeed up to one that looks behind a path that the entity does not resolve, and this
is the text of the path. -/
def AsksFor (entity : Entity) (steps : List Step) (text : String) : Prop :=
  ∃ path, path.display = text ∧ ¬entity.Resolves path ∧
    ∃ before after, steps = before ++ .operand (.property path) :: after ∧
      ∀ s ∈ before, s.outcome entity = .ok ()

namespace AsksFor

variable {steps : List Step}

theorem append (h : AsksFor entity steps text) (rest : List Step) :
    AsksFor entity (steps ++ rest) text := by
  obtain ⟨path, htext, hpath, before, after, rfl, hbefore⟩ := h
  exact ⟨path, htext, hpath, before, after ++ rest, by simp, hbefore⟩

theorem prepend (h : AsksFor entity steps text) {first : List Step}
    (hfirst : ∀ s ∈ first, s.outcome entity = .ok ()) : AsksFor entity (first ++ steps) text := by
  obtain ⟨path, htext, hpath, before, after, rfl, hbefore⟩ := h
  exact ⟨path, htext, hpath, first ++ before, after, by simp,
    List.forall_mem_append.2 ⟨hfirst, hbefore⟩⟩

theorem lower_eq (h : AsksFor entity e.steps text) :
    lower entity e = .error (.requiresStore text) := by
  obtain ⟨path, rfl, hpath, before, after, hsteps, hbefore⟩ := h
  have hproperty : property entity path = .error (.requiresStore path.display) := by
    cases hp : property entity path with
    | error err => rw [property_eq_error hp]
    | ok v => exact absurd (resolves_of_property hp) hpath
  refine map_eq_error.1 ((forM_steps entity e).symm.trans (forM_eq_error.2 ?_))
  exact ⟨before, _, after, hsteps, hbefore, map_eq_error.2 (map_eq_error.2 hproperty)⟩

end AsksFor

theorem asksFor_property (h : property entity path = .error (.requiresStore text)) :
    AsksFor entity (Expression.property path).steps text := by
  cases property_eq_error h
  refine ⟨path, rfl, fun hpath => ?_, [], [], rfl, nofun⟩
  obtain ⟨v, hv⟩ := property_of_resolves hpath
  rw [hv] at h
  cases h

/-- Where evaluation asks for the store, it stopped at a path: the operators have other errors. -/
theorem asksFor_of_lower (h : lower entity e = .error (.requiresStore text)) :
    AsksFor entity e.steps text := by
  have hoperator {p : Prop} (h : (FilterError.requiresStore text).OfOperands) : p :=
    absurd h FilterError.OfOperands.not_requiresStore
  induction e with
  | constant c => cases h
  | property path => exact asksFor_property (map_eq_error.1 h)
  | negate e ih =>
      obtain h | ⟨o, _, h⟩ := bind_eq_error.1 h
      · exact (ih h).append _
      · exact hoperator (Rules.negate_eq_error algebra_blamesOperands h)
  | not e ih =>
      obtain h | ⟨o, _, h⟩ := bind_eq_error.1 h
      · exact (ih h).append _
      · obtain h | ⟨c, _, h⟩ := bind_eq_error.1 h
        · exact hoperator (Rules.asCondition_eq_error algebra_blamesOperands h)
        · cases h
  | arithmetic op l r ihl ihr =>
      obtain h | ⟨a, ha, h⟩ := bind_eq_error.1 h
      · exact (ihl h).append _
      · obtain h | ⟨b, _, h⟩ := bind_eq_error.1 h
        · exact ((ihr h).append _).prepend (outcome_of_lower ha)
        · exact hoperator (Rules.arithmetic_eq_error algebra_blamesOperands h)
  | compare op l r ihl ihr =>
      obtain h | ⟨a, ha, h⟩ := bind_eq_error.1 h
      · exact (ihl h).append _
      · obtain h | ⟨b, _, h⟩ := bind_eq_error.1 h
        · exact ((ihr h).append _).prepend (outcome_of_lower ha)
        · obtain h | ⟨c, _, h⟩ := bind_eq_error.1 h
          · exact hoperator (Rules.compare_eq_error h)
          · cases h
  | logical op l r ihl ihr =>
      obtain h | ⟨a, ha, h⟩ := bind_eq_error.1 h
      · exact (ihl h).append _
      · obtain h | ⟨c, hc, h⟩ := bind_eq_error.1 h
        · exact hoperator (Rules.asCondition_eq_error algebra_blamesOperands h)
        · obtain h | ⟨b, _, h⟩ := bind_eq_error.1 h
          · -- by then the left side has its truth, and not only its operand
            have htruth : Step.outcome entity (.truth l) = .ok () :=
              map_eq_ok.2 ⟨c, bind_eq_ok.2 ⟨a, ha, hc⟩, rfl⟩
            have hright : AsksFor entity
                (.truth l :: (r.steps ++ [.truth r, .operand (.logical op l r)])) text :=
              ((ihr h).append _).prepend (List.forall_mem_singleton.2 htruth)
            exact hright.prepend (outcome_of_lower ha)
          · obtain h | ⟨d, _, h⟩ := bind_eq_error.1 h
            · exact hoperator (Rules.asCondition_eq_error algebra_blamesOperands h)
            · cases h

theorem evaluate_eq_requiresStore_iff :
    evaluate entity e = .error (.requiresStore text) ↔ AsksFor entity e.steps text := by
  constructor
  · intro h
    obtain h | ⟨o, _, h⟩ := bind_eq_error.1 h
    · exact asksFor_of_lower h
    · exact absurd (Rules.asCondition_eq_error algebra_blamesOperands h)
        FilterError.OfOperands.not_requiresStore
  · exact fun h => bind_eq_error.2 (.inl h.lower_eq)

theorem firstUnresolved_of_steps {before after : List Step}
    (hsteps : e.steps = before ++ .operand (.property path) :: after)
    (hbefore : ∀ s ∈ before, s.outcome entity = .ok ()) (hpath : ¬entity.Resolves path) :
    entity.FirstUnresolved e.paths path := by
  refine ⟨hpath, before.filterMap Step.path?, after.filterMap Step.path?, ?_,
    resolves_of_steps hbefore⟩
  rw [← e.filterMap_steps, hsteps, List.filterMap_append]
  rfl

theorem resolves_of_evaluate {v : Truth} (h : evaluate entity e = .ok v) :
    ∀ path ∈ e.paths, entity.Resolves path := by
  obtain ⟨o, ho, _⟩ := bind_eq_ok.1 h
  rw [← e.filterMap_steps]
  exact resolves_of_steps (outcome_of_lower ho)

/-- A filter with a path that the entity does not resolve has no truth value, whatever stands around
it. Evaluation asks for the store exactly if the first such path is reached, that is, if every
step before it succeeds, and names that path. -/
theorem evaluate_requiresStore (entity : Entity) (e : Expression) :
    ((∃ path ∈ e.paths, ¬entity.Resolves path) → ∀ v, evaluate entity e ≠ .ok v) ∧
    ∀ text, evaluate entity e = .error (.requiresStore text) ↔
      ∃ path, path.display = text ∧ entity.FirstUnresolved e.paths path ∧
        ∃ before after, e.steps = before ++ .operand (.property path) :: after ∧
          ∀ s ∈ before, s.outcome entity = .ok () := by
  constructor
  · rintro ⟨path, hmem, hpath⟩ v hv
    exact hpath (resolves_of_evaluate hv path hmem)
  · intro text
    rw [evaluate_eq_requiresStore_iff]
    constructor
    · rintro ⟨path, htext, hpath, before, after, hsteps, hbefore⟩
      exact ⟨path, htext, firstUnresolved_of_steps hsteps hbefore hpath, before, after, hsteps,
        hbefore⟩
    · rintro ⟨path, htext, hfirst, hsteps⟩
      exact ⟨path, htext, hfirst.1, hsteps⟩

/-- On the right of a disjunction whose left side is true. What stands after the path, another path
that the entity does not resolve under an operator without a rule, is not looked at. -/
theorem evaluate_requiresStore_behind_true :
    let entity := (Entity.empty .observation).set .result (.integer 5)
    let path : PropertyPath := .ofLinks [.datastream] .name
    let known : Expression :=
      .equal (.property (.single (.entity .result))) (.constant (.integer 5))
    let named : Expression := .equal (.property path) (.constant (.text "a"))
    let within : Expression :=
      .compare .contains (.property (.ofLinks [.featureOfInterest] .id)) (.constant (.integer 1))
    let e : Expression := .logical .or known (named.and within)
    (path ∈ e.paths ∧ ¬entity.Resolves path) ∧ evaluate entity known = .ok .true ∧
      (∀ v, evaluate entity e ≠ .ok v) ∧
      evaluate entity e = .error (.requiresStore path.display) := by
  intro entity path known named within e
  have hmem : path ∈ e.paths := List.mem_cons_of_mem _ List.mem_cons_self
  have hpath : ¬entity.Resolves path := by
    unfold path
    exact nofun
  have hlower : lower entity known = .ok (.condition .true) := rfl
  have hfirst : entity.FirstUnresolved e.paths path :=
    ⟨hpath, [.single (.entity .result)], [.ofLinks [.featureOfInterest] .id], rfl,
      List.forall_mem_singleton.2 (.own .result)⟩
  obtain ⟨hnever, hasks⟩ := evaluate_requiresStore entity e
  refine ⟨⟨hmem, hpath⟩, rfl, hnever ⟨path, hmem, hpath⟩, (hasks path.display).2 ?_⟩
  refine ⟨path, rfl, hfirst, known.steps ++ [.truth known], _, rfl, ?_⟩
  exact List.forall_mem_append.2
    ⟨outcome_of_lower hlower, List.forall_mem_singleton.2 rfl⟩

end Live

end LiveFilter
