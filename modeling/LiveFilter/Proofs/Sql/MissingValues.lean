import LiveFilter.Proofs.Sql.Leaves

/-! # Missing values

In the row of an entity a missing property is a null column, and to compare it is unknown. The
evaluator forgets the column: it compares the null operand, which decides equality. Apart from
equality and inequality of a missing property with something other than the null literal, both
agree on filters without arithmetic.
-/

namespace LiveFilter

open ColumnResolver (byName)
open Outcome (bind_eq_ok)

namespace Truth

/-- The first is the second, or leaves it open. -/
def Below (w v : Truth) : Prop := w = .unknown ∨ w = v

namespace Below

variable {v v' w w' : Truth}

theorem refl (v : Truth) : Below v v := .inr rfl

theorem not (h : Below w v) : Below w.not v.not := by
  obtain rfl | rfl := h
  · exact .inl rfl
  · exact refl _

theorem and (h : Below w v) (h' : Below w' v') : Below (w.and w') (v.and v') := by
  obtain rfl | rfl := h <;> obtain rfl | rfl := h'
  · exact .inl rfl
  · cases v <;> cases w' <;> first | exact .inl rfl | exact .inr rfl
  · cases v' <;> cases w <;> first | exact .inl rfl | exact .inr rfl
  · exact refl _

theorem or (h : Below w v) (h' : Below w' v') : Below (w.or w') (v.or v') := by
  obtain rfl | rfl := h <;> obtain rfl | rfl := h'
  · exact .inl rfl
  · cases v <;> cases w' <;> first | exact .inl rfl | exact .inr rfl
  · cases v' <;> cases w <;> first | exact .inl rfl | exact .inr rfl
  · exact refl _

end Below

end Truth

namespace Entity

/-- Whether something missing is compared for equality, other than with the null literal. -/
def MeetsMissing (entity : Entity) (op : ComparisonOp) (l r : Expression) : Prop :=
  (op = .equal ∨ op = .notEqual) ∧
    (entity.Lacks l ∧ ¬r.IsNullLiteral ∨ entity.Lacks r ∧ ¬l.IsNullLiteral)

instance (entity : Entity) (op : ComparisonOp) (l r : Expression) :
    Decidable (entity.MeetsMissing op l r) :=
  inferInstanceAs (Decidable (_ ∧ _))

/-- No comparison of the filter meets something missing. -/
def Clear (entity : Entity) : Expression → Prop
  | .compare op l r => ¬entity.MeetsMissing op l r
  | .not e => entity.Clear e
  | .logical _ l r => entity.Clear l ∧ entity.Clear r
  | _ => True

/-- The filter with unknown in place of every comparison that meets something missing. -/
def withhold (entity : Entity) : Expression → Expression
  | .compare op l r =>
      if entity.MeetsMissing op l r then .constant .null else .compare op l r
  | .not e => .not (entity.withhold e)
  | .logical op l r => .logical op (entity.withhold l) (entity.withhold r)
  | e => e

theorem withhold_of_clear {entity : Entity} {e : Expression} (h : entity.Clear e) :
    entity.withhold e = e := by
  induction e with
  | compare op l r => exact if_neg h
  | not e ih => rw [withhold, ih h]
  | logical op l r ihl ihr => rw [withhold, ihl h.1, ihr h.2]
  | _ => rfl

end Entity

namespace Live

theorem ofBool_ne_unknown (b : Bool) : Truth.ofBool b ≠ .unknown := by
  cases b <;> exact nofun

theorem nullComparison_ne_unknown_iff {op : ComparisonOp} {t : Option Value} :
    Rules.nullComparison algebra op t ≠ .unknown ↔ op = .equal ∨ op = .notEqual := by
  cases op with
  | equal =>
      refine ⟨fun _ => .inl rfl, fun _ => ?_⟩
      cases t with
      | none => exact nofun
      | some v => exact ofBool_ne_unknown _
  | notEqual =>
      refine ⟨fun _ => .inr rfl, fun _ => ?_⟩
      cases t with
      | none => exact nofun
      | some v =>
          change Truth.not (Truth.ofBool (normalize v).isNull) ≠ .unknown
          cases (normalize v).isNull <;> exact nofun
  | _ => exact ⟨fun h => absurd rfl h, fun h => by obtain h | h := h <;> cases h⟩

end Live

namespace Sql

variable {entity : Entity} {row : String → Option Value} {args : List Value}

theorem compareCells_of_isNull (r : Relation) {a b : Value} (h : IsNull a ∨ IsNull b) :
    compareCells r a b = .unknown :=
  if_pos h

theorem holds_unknown_of_crossing {type : TimestampType} {left right : List SqlField}
    {c : SqlCondition} (h : Rules.Crossing (algebra type) left right c)
    (hnull : ∀ f ∈ left, ∀ g ∈ right, ∃ a b, Reads row args f a ∧ Reads row args g b ∧
      (IsNull a ∨ IsNull b)) : Holds row args c .unknown := by
  have hsim := algebra_simulates row args type
  induction h with
  | compare r ha hb =>
      obtain ⟨a, b, hf, hg, h⟩ := hnull _ ha _ hb
      rw [← compareCells_of_isNull r h]
      exact holds_compare r hf hg
  | flipped r ha hb =>
      obtain ⟨a, b, hf, hg, h⟩ := hnull _ ha _ hb
      rw [← compareCells_of_isNull r h.symm]
      exact holds_compare r hg hf
  | and _ _ ihc ihd => exact hsim.and ihc ihd
  | or _ _ ihc ihd => exact hsim.or ihc ihd
  | not _ ih => exact hsim.not ih

theorem holds_of_related {type : TimestampType} {op : ComparisonOp}
    {o p : Operand SqlField SqlCondition} {o' p' : Operand Value Truth} {c : SqlCondition}
    {v : Truth} (ho : Operand.Related (Reads row args) (Holds row args) o o')
    (hp : Operand.Related (Reads row args) (Holds row args) p p')
    (hc : Rules.compare (algebra type) op o p = .ok c)
    (hv : Rules.compare Live.algebra op o' p' = .ok v) : Holds row args c v := by
  obtain ⟨d, hd, h⟩ := (algebra_simulates row args type).compare_lifts op ho hp v hv
  rw [hc] at hd
  cases hd
  exact h

theorem holds_nullComparison {type : TimestampType} (op : ComparisonOp)
    {o : Operand SqlField SqlCondition} (h : Blank row args o) :
    Holds row args (Rules.nullComparison (algebra type) op o.terms.head?)
      (Rules.nullComparison Live.algebra op none) := by
  obtain ⟨f, hhead, hf⟩ : ∃ f, o.terms.head? = some f ∧ f ∈ o.terms := by
    cases o with
    | null => exact absurd rfl h.ne_null
    | condition _ => exact absurd rfl h.ne_boolean
    | _ => exact ⟨_, rfl, List.mem_cons_self⟩
  obtain ⟨a, hread, hnull⟩ := h.terms f hf
  unfold Reads at hread
  rw [hhead]
  have hisNull : Holds row args (.isNull f) .true := by
    simp only [Holds, SqlCondition.truth?, hread]
    change some (Truth.ofBool (decide (IsNull a))) = some .true
    rw [decide_eq_true hnull]
    rfl
  have hsim := algebra_simulates row args type
  cases op with
  | equal => exact hisNull
  | notEqual => exact hsim.not hisNull
  | _ => rfl

section

variable {type : TimestampType} {op : ComparisonOp} {l r : Expression}
variable {o p : Operand SqlField SqlCondition} {o' p' : Operand Value Truth}
variable {c : SqlCondition} {v : Truth}

/-- Something missing and anything but the null literal: unknown in the store, while the evaluator
decides equality. -/
theorem compare_of_lacks (hl : Faces entity args l o o') (hr : Faces entity args r p p')
    (hmissing : entity.Lacks l ∧ ¬r.IsNullLiteral ∨ entity.Lacks r ∧ ¬l.IsNullLiteral)
    (hc : Rules.compare (algebra type) op o p = .ok c)
    (hv : Rules.compare Live.algebra op o' p' = .ok v) :
    Holds entity.row args c .unknown ∧ (v ≠ .unknown ↔ op = .equal ∨ op = .notEqual) := by
  obtain ⟨hlacks, hlit⟩ | ⟨hlacks, hlit⟩ := hmissing
  · obtain ⟨hblank, rfl⟩ := hl.of_lacks hlacks
    refine ⟨?_, by rw [Rules.null_compare hv]; exact Live.nullComparison_ne_unknown_iff⟩
    have hcross := Rules.compare_crossing hblank.ne_null (hr.kind_ne_null hlit) hc
    refine holds_unknown_of_crossing hcross fun f hf g hg => ?_
    obtain ⟨a, ha, hnull⟩ := hblank.terms f hf
    obtain ⟨b, hb⟩ := hr.reads hg
    exact ⟨a, b, ha, hb, .inl hnull⟩
  · obtain ⟨hblank, rfl⟩ := hr.of_lacks hlacks
    refine ⟨?_, by rw [Rules.compare_null hv]; exact Live.nullComparison_ne_unknown_iff⟩
    have hcross := Rules.compare_crossing (hl.kind_ne_null hlit) hblank.ne_null hc
    refine holds_unknown_of_crossing hcross fun f hf g hg => ?_
    obtain ⟨a, ha⟩ := hl.reads hf
    obtain ⟨b, hb, hnull⟩ := hblank.terms g hg
    exact ⟨a, b, ha, hb, .inr hnull⟩

/-- Nothing missing, or the null literal next to it: the store and the evaluator agree. -/
theorem compare_of_not_lacks (hl : Faces entity args l o o') (hr : Faces entity args r p p')
    (hmissing : ¬(entity.Lacks l ∧ ¬r.IsNullLiteral ∨ entity.Lacks r ∧ ¬l.IsNullLiteral))
    (hc : Rules.compare (algebra type) op o p = .ok c)
    (hv : Rules.compare Live.algebra op o' p' = .ok v) : Holds entity.row args c v := by
  obtain ⟨hleft, hright⟩ := not_or.1 hmissing
  -- something missing next to the null literal: the store asks the column, the evaluator itself
  by_cases hlacks : entity.Lacks l
  · obtain ⟨rfl, rfl⟩ := hr.of_isNullLiteral (Decidable.not_not.1 fun h => hleft ⟨hlacks, h⟩)
    obtain ⟨hblank, rfl⟩ := hl.of_lacks hlacks
    rw [Rules.compare_null hc, Rules.compare_null hv]
    exact holds_nullComparison op hblank
  by_cases hlacks' : entity.Lacks r
  · obtain ⟨rfl, rfl⟩ := hl.of_isNullLiteral (Decidable.not_not.1 fun h => hright ⟨hlacks', h⟩)
    obtain ⟨hblank, rfl⟩ := hr.of_lacks hlacks'
    rw [Rules.null_compare hc, Rules.null_compare hv]
    exact holds_nullComparison op hblank
  · exact holds_of_related (hl.related hlacks) (hr.related hlacks') hc hv

/-- Where a comparison meets something missing, the evaluator has decided what the store leaves
open; everywhere else they agree. -/
theorem compare_faces (hl : Faces entity args l o o') (hr : Faces entity args r p p')
    (hc : Rules.compare (algebra type) op o p = .ok c)
    (hv : Rules.compare Live.algebra op o' p' = .ok v) :
    (entity.MeetsMissing op l r → Holds entity.row args c .unknown ∧ v ≠ .unknown) ∧
      (¬entity.MeetsMissing op l r → Holds entity.row args c v) := by
  constructor
  · rintro ⟨hop, hmissing⟩
    obtain ⟨hholds, hdecided⟩ := compare_of_lacks hl hr hmissing hc hv
    exact ⟨hholds, hdecided.2 hop⟩
  · intro hclear
    by_cases hmissing :
      entity.Lacks l ∧ ¬r.IsNullLiteral ∨ entity.Lacks r ∧ ¬l.IsNullLiteral
    · obtain ⟨hholds, hdecided⟩ := compare_of_lacks hl hr hmissing hc hv
      by_cases hv' : v = .unknown
      · rwa [hv']
      · exact absurd ⟨hdecided.1 hv', hmissing⟩ hclear
    · exact compare_of_not_lacks hl hr hmissing hc hv

end

theorem conditionAt_compare {type : TimestampType} {op : ComparisonOp} {l r : Expression} {n : Nat}
    {c : SqlCondition} {v : Truth} (hplain : (Expression.compare op l r).Plain)
    (h : entity.Conforms) (hargs : (Expression.compare op l r).arguments <+: args.drop n)
    (hc : Table.conditionAt ⟨entity.type, type, byName⟩ n (.compare op l r) = .ok c)
    (hv : Live.evaluate entity (.compare op l r) = .ok v) :
    (entity.MeetsMissing op l r → Holds entity.row args c .unknown ∧ v ≠ .unknown) ∧
      (¬entity.MeetsMissing op l r → Holds entity.row args c v) := by
  obtain ⟨o, p, ho, hp, hc⟩ := Rules.compare_eq_ok.1 hc
  obtain ⟨o', p', ho', hp', hv⟩ := Rules.compare_eq_ok.1 hv
  obtain ⟨hkind, hkind'⟩ := Rules.kind_ne_boolean_of_compare hv
  obtain ⟨hargsl, hargsr⟩ := Expression.arguments_prefix hargs
  exact compare_faces (faces_of_plain hplain.1 h hargsl ho ho' hkind)
    (faces_of_plain hplain.2 h hargsr hp hp' hkind') hc hv

theorem conditionAt_withhold {type : TimestampType} {e : Expression} {n : Nat} {c : SqlCondition}
    {v : Truth} (hplain : e.Plain) (h : entity.Conforms) (hargs : e.arguments <+: args.drop n)
    (hc : Table.conditionAt ⟨entity.type, type, byName⟩ n e = .ok c)
    (hv : Live.evaluate entity e = .ok v) :
    ∃ w, Holds entity.row args c w ∧ Live.evaluate entity (entity.withhold e) = .ok w ∧
      w.Below v := by
  have hsim := algebra_simulates entity.row args type
  -- a comparison that is withheld turns unknown; the connectives then keep `Below`
  induction e generalizing n c v with
  | constant k =>
      obtain ⟨o, ho, hc⟩ := bind_eq_ok.1 hc
      obtain ⟨o', ho', hv'⟩ := bind_eq_ok.1 hv
      cases ho
      cases ho'
      rw [Expression.arguments_constant] at hargs
      exact ⟨v, asCondition_faces (faces_constant hargs) hc hv', hv, .refl v⟩
  | property path =>
      obtain ⟨o, ho, hc⟩ := bind_eq_ok.1 hc
      obtain ⟨o', ho', hv'⟩ := bind_eq_ok.1 hv
      exact ⟨v, asCondition_faces (faces_property h ho ho') hc hv', hv, .refl v⟩
  | negate e => exact hplain.elim
  | arithmetic op l r => exact hplain.elim
  | not e ih =>
      obtain ⟨d, hd, rfl⟩ := Rules.not_eq_ok.1 hc
      obtain ⟨u, hu, rfl⟩ := Rules.not_eq_ok.1 hv
      obtain ⟨w, hw, hwithhold, hbelow⟩ := ih hplain hargs hd hu
      exact ⟨w.not, hsim.not hw, Rules.not_eq_ok.2 ⟨w, hwithhold, rfl⟩, hbelow.not⟩
  | compare op l r _ _ =>
      obtain ⟨hmeets, hclear⟩ := conditionAt_compare hplain h hargs hc hv
      unfold Entity.withhold
      split
      · rename_i hm
        exact ⟨.unknown, (hmeets hm).1, rfl, .inl rfl⟩
      · rename_i hm
        exact ⟨v, hclear hm, hv, .refl v⟩
  | logical op l r ihl ihr =>
      obtain ⟨c₁, c₂, hc₁, hc₂, rfl⟩ := Rules.logical_eq_ok.1 hc
      obtain ⟨v₁, v₂, hv₁, hv₂, rfl⟩ := Rules.logical_eq_ok.1 hv
      obtain ⟨hargsl, hargsr⟩ := Expression.arguments_prefix hargs
      obtain ⟨w₁, hw₁, hwithhold₁, hbelow₁⟩ := ihl hplain.1 hargsl hc₁ hv₁
      obtain ⟨w₂, hw₂, hwithhold₂, hbelow₂⟩ := ihr hplain.2 hargsr hc₂ hv₂
      refine ⟨_, hsim.logical op hw₁ hw₂, ?_, ?_⟩
      · exact Rules.logical_eq_ok.2 ⟨w₁, w₂, hwithhold₁, hwithhold₂, rfl⟩
      · cases op with
        | and => exact hbelow₁.and hbelow₂
        | or => exact hbelow₁.or hbelow₂

/-- The compiled filter has the truth of the filter without the comparisons that meet something
missing. Each of those is unknown in the store, and decided by the evaluator. -/
theorem truth?_eq_evaluate_withhold {e : Expression} {c : CompiledFilter} {v : Truth}
    (type : TimestampType) (hplain : e.Plain) (h : entity.Conforms)
    (hc : Table.compile ⟨entity.type, type, byName⟩ e = .ok c)
    (hv : Live.evaluate entity e = .ok v) :
    ∃ w, c.condition.truth? entity.row e.arguments = some w ∧
      Live.evaluate entity (entity.withhold e) = .ok w ∧ w.Below v ∧
      (entity.Clear e → w = v) ∧
      ∀ op l r, e = .compare op l r → entity.MeetsMissing op l r → w = .unknown ∧ v ≠ .unknown := by
  rw [Table.compile_eq] at hc
  obtain ⟨condition, hcondition, rfl⟩ := Outcome.map_eq_ok.1 hc
  have hargs : e.arguments <+: e.arguments.drop 0 := List.prefix_rfl
  obtain ⟨w, hw, hwithhold, hbelow⟩ := conditionAt_withhold hplain h hargs hcondition hv
  refine ⟨w, hw, hwithhold, hbelow, fun hclear => ?_, ?_⟩
  · rw [Entity.withhold_of_clear hclear, hv] at hwithhold
    exact (Except.ok.inj hwithhold).symm
  · rintro op l r rfl hmeets
    obtain ⟨hunknown, hv'⟩ := (conditionAt_compare hplain h hargs hcondition hv).1 hmeets
    exact ⟨Option.some.inj (hw.symm.trans hunknown), hv'⟩

/-- One comparison meets the missing quality, the other one decides the filter. -/
theorem truth?_eq_evaluate_withhold_observation :
    let entity := (Entity.empty .observation).set .result (.integer 10)
    let quality : Expression :=
      .equal (.property (.single (.entity .resultQuality))) (.constant (.text "good"))
    let result : Expression :=
      .compare .greaterThan (.property (.single (.entity .result))) (.constant (.integer 5))
    let e : Expression := .logical .or quality result
    let c : CompiledFilter :=
      ⟨.or (.compare .eq (.column "result_quality") (.param 1 none))
        (.compare .gt (.column "result") (.param 2 none)), [.text "good", .integer 5]⟩
    e.Plain ∧ entity.Conforms ∧ Table.compile ⟨entity.type, .withTimeZone, byName⟩ e = .ok c ∧
      Live.evaluate entity e = .ok .true ∧
      ∃ w, c.condition.truth? entity.row e.arguments = some w ∧
        Live.evaluate entity (entity.withhold e) = .ok w ∧ w.Below .true ∧
        (entity.Clear e → w = .true) ∧
        ∀ op l r, e = .compare op l r → entity.MeetsMissing op l r →
          w = .unknown ∧ Truth.true ≠ .unknown := by
  intro entity quality result e c
  have hplain : e.Plain := ⟨⟨trivial, trivial⟩, trivial, trivial⟩
  have hentity : entity.Conforms := by
    intro p v _ hv
    cases p <;> cases hv
    exact .inr rfl
  have hc : Table.compile ⟨entity.type, .withTimeZone, byName⟩ e = .ok c := by rfl
  have hv : Live.evaluate entity e = .ok .true := by rfl
  exact ⟨hplain, hentity, hc, hv, truth?_eq_evaluate_withhold .withTimeZone hplain hentity hc hv⟩

/-- An observation without a result: the filter matches the event, but not the row. -/
theorem evaluate_ne_truth?_of_missing_result :
    let entity := Entity.empty .observation
    let e : Expression :=
      .compare .notEqual (.property (.single (.entity .result))) (.constant (.integer 5))
    e.Plain ∧ entity.Conforms ∧ Live.evaluate entity e = .ok .true ∧
      ∃ c, Table.compile ⟨entity.type, .withTimeZone, byName⟩ e = .ok c ∧
        c.condition.truth? entity.row e.arguments = some .unknown := by
  refine ⟨⟨trivial, trivial⟩, ?_, rfl, _, rfl, rfl⟩
  intro p v _ hv
  cases p <;> cases hv

end Sql

end LiveFilter
