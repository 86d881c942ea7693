import LiveFilter.Sql.Compiler

/-! # Types of fields

A field is a scalar, an interval or a timestamp under the rules for columns, placeholders, casts
and arithmetic. The primitive operations of the compiler keep to these rules: they cast what they
combine, unless it is bound with its cast already, and guard what they divide by.
-/

namespace LiveFilter

variable {columns : String → Option SqlType → Prop} {stamp : TimestampType}

namespace SqlField

/-- The typing rules, in which a scalar is a field of no cast type. -/
inductive HasType (columns : String → Option SqlType → Prop) : SqlField → Option SqlType → Prop
  | column {name : String} {type : Option SqlType} (h : columns name type) :
      HasType columns (column name) type
  | param (index : Nat) (bound : Option SqlType) : HasType columns (param index bound) bound
  | cast {f : SqlField} {type : SqlType} (h : HasType columns f (some type)) :
      HasType columns (cast f type) (some type)
  | nullIfZero {f : SqlField} (h : HasType columns f none) : HasType columns (nullIfZero f) none
  | numbers (op : ArithmeticOp) {f g : SqlField} (hf : HasType columns f none)
      (hg : HasType columns g none) : HasType columns (binary op f g) none
  | moved {op : ArithmeticOp} {f g : SqlField} {stamp : TimestampType}
      (hop : op = .add ∨ op = .sub) (hf : HasType columns f (some (.timestamp stamp)))
      (hg : HasType columns g (some .interval)) :
      HasType columns (binary op f g) (some (.timestamp stamp))
  | difference {f g : SqlField} {stamp : TimestampType}
      (hf : HasType columns f (some (.timestamp stamp)))
      (hg : HasType columns g (some (.timestamp stamp))) :
      HasType columns (binary .sub f g) (some .interval)
  | intervals {op : ArithmeticOp} {f g : SqlField} (hop : op = .add ∨ op = .sub)
      (hf : HasType columns f (some .interval)) (hg : HasType columns g (some .interval)) :
      HasType columns (binary op f g) (some .interval)
  | scaled {op : ArithmeticOp} {f g : SqlField} (hop : op = .mul ∨ op = .div)
      (hf : HasType columns f (some .interval)) (hg : HasType columns g none) :
      HasType columns (binary op f g) (some .interval)
  | negate {f : SqlField} {type : Option SqlType} (h : HasType columns f type)
      (htype : type = none ∨ type = some .interval) : HasType columns (negate f) type

theorem HasType.unique (hcolumns : ∀ name a b, columns name a → columns name b → a = b)
    {f : SqlField} {a b : Option SqlType} (ha : f.HasType columns a) (hb : f.HasType columns b) :
    a = b := by
  induction ha generalizing b with
  | column h =>
      cases hb with
      | column h' => exact hcolumns _ _ _ h h'
  | param _ _ | cast _ _ | nullIfZero _ _ =>
      cases hb
      rfl
  | negate _ _ ih =>
      cases hb with
      | negate h _ => exact ih h
  | numbers _ _ _ ihf _ =>
      cases hb with
      | numbers _ _ _ => rfl
      | moved _ hf _ | difference hf _ | intervals _ hf _ | scaled _ hf _ => cases ihf hf
  | moved _ _ _ ihf ihg =>
      cases hb with
      | moved _ hf _ => exact ihf hf
      | difference _ hg => cases ihg hg
      | numbers _ hf _ | intervals _ hf _ | scaled _ hf _ => cases ihf hf
  | difference _ _ ihf ihg =>
      cases hb with
      | difference _ _ => rfl
      | moved _ _ hg => cases ihg hg
      | numbers _ hf _ | intervals _ hf _ | scaled _ hf _ => cases ihf hf
  | intervals _ _ _ ihf _ | scaled _ _ _ ihf _ =>
      cases hb with
      | intervals _ _ _ | scaled _ _ _ => rfl
      | numbers _ hf _ | moved _ hf _ | difference hf _ => cases ihf hf

def parts : SqlField → List SqlField
  | cast f type => cast f type :: f.parts
  | nullIfZero f => nullIfZero f :: f.parts
  | negate f => negate f :: f.parts
  | binary op f g => binary op f g :: (f.parts ++ g.parts)
  | f => [f]

/-- What is asked of every field of a condition: it has a type, divides by nothing that may be
zero, does not repeat the cast with which a placeholder is bound, and casts to the one type of
timestamps. -/
structure Fit (columns : String → Option SqlType → Prop) (stamp : TimestampType)
    (f : SqlField) : Prop where
  typed : ∃ type, f.HasType columns type
  guarded : ∀ op left right, f = binary op left right → op = .div ∨ op = .mod →
    ∃ divisor, right = nullIfZero divisor
  needed : ∀ index bound type, f = cast (param index (some bound)) type → bound ≠ type
  stamped : ∀ other, (∃ g, f = cast g (.timestamp other)) ∨
    (∃ index, f = param index (some (.timestamp other))) → other = stamp

structure Sound (columns : String → Option SqlType → Prop) (stamp : TimestampType)
    (type : Option SqlType) (f : SqlField) : Prop where
  hasType : f.HasType columns type
  parts : ∀ g ∈ f.parts, g.Fit columns stamp

variable {f g : SqlField} {type : Option SqlType} {op : ArithmeticOp}

/-- Timestamps among the types of fields are those of the table. -/
def Native (stamp : TimestampType) (type : Option SqlType) : Prop :=
  ∀ other, type = some (.timestamp other) → other = stamp

theorem sound_column {name : String} (h : columns name type) :
    (column name).Sound columns stamp type where
  hasType := .column h
  parts g hg := by
    cases List.mem_singleton.1 hg
    exact ⟨⟨_, .column h⟩, nofun, nofun, by simp⟩

theorem sound_param (index : Nat) (h : Native stamp type) :
    (param index type).Sound columns stamp type where
  hasType := .param index type
  parts g hg := by
    cases List.mem_singleton.1 hg
    refine ⟨⟨_, .param index type⟩, nofun, nofun, fun other => ?_⟩
    rintro (⟨_, ⟨⟩⟩ | ⟨_, ⟨⟩⟩)
    exact h other rfl

theorem castTo_cases (f : SqlField) (type : SqlType) : f.castTo type = f ∨
    f.castTo type = cast f type ∧ ∀ index bound, f = param index (some bound) → bound ≠ type := by
  cases f with
  | param index bound =>
      cases bound with
      | none => exact .inr ⟨rfl, nofun⟩
      | some bound =>
          by_cases h : bound = type
          · exact .inl (if_pos h)
          · refine .inr ⟨if_neg h, ?_⟩
            rintro _ _ ⟨⟩
            exact h
  | _ => exact .inr ⟨rfl, nofun⟩

theorem Sound.castTo {type : SqlType} (h : f.Sound columns stamp (some type))
    (htype : Native stamp (some type)) : (f.castTo type).Sound columns stamp (some type) := by
  obtain heq | ⟨heq, hneeded⟩ := castTo_cases f type
  · rwa [heq]
  · rw [heq]
    refine ⟨.cast h.hasType, fun g hg => ?_⟩
    obtain rfl | hg := List.mem_cons.1 hg
    · refine ⟨⟨_, .cast h.hasType⟩, nofun, ?_, fun other => ?_⟩
      · rintro index bound _ ⟨⟩
        exact hneeded index bound rfl
      · rintro (⟨_, ⟨⟩⟩ | ⟨_, ⟨⟩⟩)
        exact htype other rfl
    · exact h.parts g hg

theorem Sound.nullIfZero (h : f.Sound columns stamp none) :
    (nullIfZero f).Sound columns stamp none where
  hasType := .nullIfZero h.hasType
  parts g hg := by
    obtain rfl | hg := List.mem_cons.1 hg
    · exact ⟨⟨_, .nullIfZero h.hasType⟩, nofun, nofun, by simp⟩
    · exact h.parts g hg

theorem Sound.negate (h : f.Sound columns stamp type)
    (htype : type = none ∨ type = some .interval) :
    (negate f).Sound columns stamp type where
  hasType := .negate h.hasType htype
  parts g hg := by
    obtain rfl | hg := List.mem_cons.1 hg
    · exact ⟨⟨_, .negate h.hasType htype⟩, nofun, nofun, by simp⟩
    · exact h.parts g hg

theorem Sound.binary {a b : Option SqlType} (hf : f.Sound columns stamp a)
    (hg : g.Sound columns stamp b) (h : (binary op f g).HasType columns type)
    (hguarded : op = .div ∨ op = .mod → ∃ divisor, g = .nullIfZero divisor) :
    (binary op f g).Sound columns stamp type where
  hasType := h
  parts part hpart := by
    obtain rfl | hpart := List.mem_cons.1 hpart
    · refine ⟨⟨_, h⟩, ?_, nofun, by simp⟩
      rintro _ _ _ ⟨⟩
      exact hguarded
    · obtain hpart | hpart := List.mem_append.1 hpart
      · exact hf.parts part hpart
      · exact hg.parts part hpart

end SqlField

def ValueKind.sqlType (stamp : TimestampType) : ValueKind → Option SqlType
  | .instant | .interval => some (.timestamp stamp)
  | .duration => some .interval
  | .null | .boolean | .scalar => none

theorem ValueKind.native_sqlType (k : ValueKind) : SqlField.Native stamp (k.sqlType stamp) := by
  intro other h
  cases k <;> cases h <;> rfl

namespace Sql

open SqlField (Sound)

variable {f g : SqlField} {op : ArithmeticOp}

theorem ne_division (hop : op = .add ∨ op = .sub) : ¬(op = .div ∨ op = .mod) := by
  rcases hop with rfl | rfl <;> simp

theorem native_timestamp : SqlField.Native stamp (some (.timestamp stamp)) :=
  ValueKind.native_sqlType .instant

theorem native_interval : SqlField.Native stamp (some .interval) :=
  ValueKind.native_sqlType .duration

theorem sound_guardDivisor (op : ArithmeticOp) (h : g.Sound columns stamp none) :
    (guardDivisor op g).Sound columns stamp none := by
  cases op with
  | div | mod => exact h.nullIfZero
  | add | sub | mul => exact h

theorem exists_guardDivisor (h : op = .div ∨ op = .mod) :
    ∃ divisor, guardDivisor op g = .nullIfZero divisor := by
  rcases h with rfl | rfl <;> exact ⟨g, rfl⟩

theorem sound_numbers (op : ArithmeticOp) (hf : f.Sound columns stamp none)
    (hg : g.Sound columns stamp none) :
    (arithmetic stamp op .numbers f g).Sound columns stamp none :=
  hf.binary (sound_guardDivisor op hg) (.numbers op hf.hasType (sound_guardDivisor op hg).hasType)
    exists_guardDivisor

theorem sound_scaled (hop : op = .mul ∨ op = .div) (hf : f.Sound columns stamp (some .interval))
    (hg : g.Sound columns stamp none) :
    (arithmetic stamp op .durationScalar f g).Sound columns stamp (some .interval) := by
  have hf := hf.castTo native_interval
  have hg := sound_guardDivisor op hg
  exact hf.binary hg (.scaled hop hf.hasType hg.hasType) exists_guardDivisor

theorem sound_moved (hop : op = .add ∨ op = .sub)
    (hf : f.Sound columns stamp (some (.timestamp stamp)))
    (hg : g.Sound columns stamp (some .interval)) :
    (arithmetic stamp op .instantDuration f g).Sound columns stamp (some (.timestamp stamp)) := by
  have hf := hf.castTo native_timestamp
  have hg := hg.castTo native_interval
  exact hf.binary hg (.moved hop hf.hasType hg.hasType) fun h => absurd h (ne_division hop)

theorem sound_difference (hf : f.Sound columns stamp (some (.timestamp stamp)))
    (hg : g.Sound columns stamp (some (.timestamp stamp))) :
    (arithmetic stamp .sub .instantInstant f g).Sound columns stamp (some .interval) := by
  have hf := hf.castTo native_timestamp
  have hg := hg.castTo native_timestamp
  exact hf.binary hg (.difference hf.hasType hg.hasType) fun h => absurd h (ne_division (.inr rfl))

theorem sound_intervals (hop : op = .add ∨ op = .sub) (hf : f.Sound columns stamp (some .interval))
    (hg : g.Sound columns stamp (some .interval)) :
    (arithmetic stamp op .durationDuration f g).Sound columns stamp (some .interval) := by
  have hf := hf.castTo native_interval
  have hg := hg.castTo native_interval
  exact hf.binary hg (.intervals hop hf.hasType hg.hasType) fun h => absurd h (ne_division hop)

end Sql

end LiveFilter
