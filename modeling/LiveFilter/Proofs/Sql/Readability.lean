import LiveFilter.Proofs.Text.Digits
import LiveFilter.Proofs.Text.Quoted
import LiveFilter.Sql.Condition

/-! # Unique readability of conditions

A field can be read off the head of a text: no two fields have texts that go on to the same text,
as long as each is ended by what comes after it. Comparisons stand without parentheses, so a
condition is told by its leading field and by what follows that; and a parenthesis that opens a
conjunction never opens a field as well. The only conditions that share a text are the unknown
literal and the null field.
-/

namespace LiveFilter

variable {r s : List Char}

/-- What may stand after a field: nothing, a blank, a closing parenthesis or a comma. -/
inductive EndsField : List Char → Prop
  | nil : EndsField []
  | blank (cs : List Char) : EndsField (' ' :: cs)
  | close (cs : List Char) : EndsField (')' :: cs)
  | comma (cs : List Char) : EndsField (',' :: cs)

theorem EndsField.endsDigits (h : EndsField r) : EndsDigits r := by
  cases h with
  | nil => exact .nil
  | _ => exact .cons _ rfl

theorem EndsField.head?_ne_quote (h : EndsField r) : r.head? ≠ some '"' := by
  cases h <;> simp

theorem SqlType.name_append_inj {t u : SqlType} (hr : EndsField r) (hs : EndsField s)
    (h : t.name.toList ++ r = u.name.toList ++ s) : t = u ∧ r = s := by
  rcases t with ⟨_ | _⟩ | _ <;> rcases u with ⟨_ | _⟩ | _ <;> simp [name] at h ⊢
  · exact h
  · subst h
    cases hs
  · subst h
    cases hr
  · exact h
  · exact h

theorem ArithmeticOp.token_append_inj {op op' : ArithmeticOp}
    (h : op.token.toList ++ r = op'.token.toList ++ s) : op = op' ∧ r = s := by
  cases op <;> cases op' <;> simp [token] at h ⊢ <;> exact h

/-- A blank keeps `<` apart from `<=` and `<>`. -/
theorem Relation.sqlToken_append_inj {rel rel' : Relation}
    (h : rel.sqlToken.toList ++ ' ' :: r = rel'.sqlToken.toList ++ ' ' :: s) :
    rel = rel' ∧ r = s := by
  cases rel <;> cases rel' <;> simp [sqlToken] at h ⊢ <;> exact h

namespace SqlField

def chars (f : SqlField) : List Char := f.render.toList

variable {f g : SqlField}

@[simp] theorem chars_column (name : String) : (column name).chars =
    '"' :: (Quoted.double '"' name.toList ++ ['"']) := by
  simp [chars, render, Quoted.wrapChars]

@[simp] theorem chars_param (index : Nat) (type : Option SqlType) :
    (param index type).chars = '$' :: (Nat.toDigits 10 index ++ (castSuffix type).toList) := by
  simp [chars, render]

@[simp] theorem chars_null : null.chars = ['N', 'U', 'L', 'L'] := by simp [chars, render]

@[simp] theorem chars_cast (f : SqlField) (type : SqlType) :
    (cast f type).chars = '(' :: (f.chars ++ ')' :: ':' :: ':' :: type.name.toList) := by
  simp [chars, render, castSuffix]

@[simp] theorem chars_nullIfZero (f : SqlField) : (nullIfZero f).chars =
    'N' :: 'U' :: 'L' :: 'L' :: 'I' :: 'F' :: '(' :: (f.chars ++ [',', ' ', '0', ')']) := by
  simp [chars, render]

@[simp] theorem chars_binary (op : ArithmeticOp) (f g : SqlField) : (binary op f g).chars =
    '(' :: (f.chars ++ ' ' :: (op.token.toList ++ ' ' :: (g.chars ++ [')']))) := by
  simp [chars, render]

@[simp] theorem chars_negate (f : SqlField) :
    (negate f).chars = '(' :: '-' :: (f.chars ++ [')']) := by
  simp [chars, render]

theorem chars_append_ne {c : Char} (hc : c ∉ ['"', '$', 'N', '(']) : f.chars ++ r ≠ c :: s := by
  intro h
  apply hc
  cases f <;>
    simp only [chars_column, chars_param, chars_null, chars_cast, chars_nullIfZero, chars_binary,
      chars_negate, List.cons_append] at h <;>
    rw [← (List.cons.inj h).1] <;> decide

theorem chars_append_ne_not : f.chars ++ r ≠ 'N' :: 'O' :: s := by
  cases f <;> simp

theorem castSuffix_append_inj {t u : Option SqlType} (hr : EndsField r) (hs : EndsField s)
    (h : (castSuffix t).toList ++ r = (castSuffix u).toList ++ s) : t = u ∧ r = s := by
  cases t with
  | none =>
      cases u with
      | none => exact ⟨rfl, h⟩
      | some u =>
          simp [castSuffix] at h
          subst h
          cases hr
  | some t =>
      cases u with
      | none =>
          simp [castSuffix] at h
          subst h
          cases hs
      | some u =>
          simp only [castSuffix, String.toList_append, List.append_assoc] at h
          obtain ⟨rfl, hrest⟩ := SqlType.name_append_inj hr hs (List.append_cancel_left h)
          exact ⟨rfl, hrest⟩

theorem endsDigits_castSuffix {t : Option SqlType} (hr : EndsField r) :
    EndsDigits ((castSuffix t).toList ++ r) := by
  cases t with
  | none => exact hr.endsDigits
  | some t =>
      simp only [castSuffix, String.toList_append, List.append_assoc]
      exact .cons _ rfl

/-- A field is read off the head of a text in one way. -/
theorem chars_append_inj (hr : EndsField r) (hs : EndsField s)
    (h : f.chars ++ r = g.chars ++ s) : f = g ∧ r = s := by
  -- the first characters tell most fields apart; what is left are `NULL` before `NULLIF(`, and the
  -- three forms in parentheses, which differ in what follows the field inside
  induction f generalizing g r s with
  | column name =>
      cases g with
      | column name' =>
          simp only [chars_column, List.cons_append, List.append_assoc, List.nil_append,
            List.cons.injEq, true_and] at h
          obtain ⟨hname, hrest⟩ := Quoted.double_append_inj hr.head?_ne_quote hs.head?_ne_quote h
          exact ⟨congrArg column (String.toList_injective hname), hrest⟩
      | _ => simp at h
  | param index type =>
      cases g with
      | param index' type' =>
          simp only [chars_param, List.cons_append, List.append_assoc, List.cons.injEq,
            true_and] at h
          obtain ⟨rfl, hsuffix⟩ :=
            toDigits_append_inj (endsDigits_castSuffix hr) (endsDigits_castSuffix hs) h
          obtain ⟨rfl, hrest⟩ := castSuffix_append_inj hr hs hsuffix
          exact ⟨rfl, hrest⟩
      | _ => simp at h
  | null =>
      cases g with
      | null => exact ⟨rfl, List.append_cancel_left h⟩
      | nullIfZero g =>
          simp at h
          subst h
          cases hr
      | _ => simp at h
  | nullIfZero f ih =>
      cases g with
      | null =>
          simp at h
          subst h
          cases hs
      | nullIfZero g =>
          simp only [chars_nullIfZero, List.cons_append, List.append_assoc, List.nil_append,
            List.cons.injEq, true_and] at h
          obtain ⟨rfl, hrest⟩ := ih (.comma _) (.comma _) h
          exact ⟨rfl, by simpa using hrest⟩
      | _ => simp at h
  | cast f type ih =>
      cases g with
      | cast g type' =>
          simp only [chars_cast, List.cons_append, List.append_assoc, List.cons.injEq,
            true_and] at h
          obtain ⟨rfl, htail⟩ := ih (.close _) (.close _) h
          simp only [List.cons.injEq, true_and] at htail
          obtain ⟨rfl, hrest⟩ := SqlType.name_append_inj hr hs htail
          exact ⟨rfl, hrest⟩
      | binary op a b =>
          simp only [chars_cast, chars_binary, List.cons_append, List.append_assoc, List.cons.injEq,
            true_and] at h
          have htail := (ih (.close _) (.blank _) h).2
          simp at htail
      | negate g =>
          simp only [chars_cast, chars_negate, List.cons_append, List.append_assoc, List.cons.injEq,
            true_and] at h
          -- no field begins with a minus
          exact absurd h (chars_append_ne (by decide))
      | _ => simp at h
  | binary op a b iha ihb =>
      cases g with
      | cast g type' =>
          simp only [chars_cast, chars_binary, List.cons_append, List.append_assoc, List.cons.injEq,
            true_and] at h
          have htail := (iha (.blank _) (.close _) h).2
          simp at htail
      | binary op' a' b' =>
          simp only [chars_binary, List.cons_append, List.append_assoc, List.nil_append,
            List.cons.injEq, true_and] at h
          obtain ⟨rfl, htail⟩ := iha (.blank _) (.blank _) h
          obtain ⟨rfl, hright⟩ := ArithmeticOp.token_append_inj (List.cons.inj htail).2
          obtain ⟨rfl, hrest⟩ := ihb (.close _) (.close _) (List.cons.inj hright).2
          exact ⟨rfl, (List.cons.inj hrest).2⟩
      | negate g =>
          simp only [chars_binary, chars_negate, List.cons_append, List.append_assoc,
            List.cons.injEq, true_and] at h
          exact absurd h (chars_append_ne (by decide))
      | _ => simp at h
  | negate f ih =>
      cases g with
      | cast g type' =>
          simp only [chars_cast, chars_negate, List.cons_append, List.append_assoc, List.cons.injEq,
            true_and] at h
          exact absurd h.symm (chars_append_ne (by decide))
      | binary op a b =>
          simp only [chars_binary, chars_negate, List.cons_append, List.append_assoc,
            List.cons.injEq, true_and] at h
          exact absurd h.symm (chars_append_ne (by decide))
      | negate g =>
          simp only [chars_negate, List.cons_append, List.append_assoc, List.nil_append,
            List.cons.injEq, true_and] at h
          obtain ⟨rfl, hrest⟩ := ih (.close _) (.close _) h
          exact ⟨rfl, (List.cons.inj hrest).2⟩
      | _ => simp at h

end SqlField

def LogicalOp.joint : LogicalOp → List Char
  | and => " AND ".toList
  | or => " OR ".toList

theorem LogicalOp.joint_append_inj {op op' : LogicalOp} (h : op.joint ++ r = op'.joint ++ s) :
    op = op' ∧ r = s := by
  cases op <;> cases op' <;> simp [joint] at h ⊢ <;> exact h

/-- What may stand after a condition: nothing, a closing parenthesis or a joining word. -/
inductive EndsCondition : List Char → Prop
  | nil : EndsCondition []
  | close (cs : List Char) : EndsCondition (')' :: cs)
  | joint (op : LogicalOp) (cs : List Char) : EndsCondition (op.joint ++ cs)

theorem EndsCondition.endsField (h : EndsCondition r) : EndsField r := by
  cases h with
  | nil => exact .nil
  | close cs => exact .close cs
  | joint op cs => cases op <;> exact .blank _

theorem not_endsCondition_relation (rel : Relation) :
    ¬EndsCondition (' ' :: (rel.sqlToken.toList ++ r)) := by
  intro h
  generalize heq : ' ' :: (rel.sqlToken.toList ++ r) = text at h
  cases h with
  | nil | close _ => simp at heq
  | joint op _ => cases op <;> cases rel <;> simp [Relation.sqlToken, LogicalOp.joint] at heq

theorem not_endsCondition_isNull : ¬EndsCondition (" IS NULL".toList ++ r) := by
  intro h
  generalize heq : " IS NULL".toList ++ r = text at h
  cases h with
  | nil | close _ => simp at heq
  | joint op _ => cases op <;> simp [LogicalOp.joint] at heq

namespace SqlCondition

def chars (c : SqlCondition) : List Char := c.render.toList

/-- The two conditions that are written `NULL`, made one. -/
def mergeNull : SqlCondition → SqlCondition
  | literal none => field .null
  | and left right => and left.mergeNull right.mergeNull
  | or left right => or left.mergeNull right.mergeNull
  | not inner => not inner.mergeNull
  | c => c

theorem mergeNull_mergeNull (c : SqlCondition) : c.mergeNull.mergeNull = c.mergeNull := by
  fun_induction mergeNull c with
  | case1 => rfl
  | case2 _ _ ihl ihr => rw [mergeNull, ihl, ihr]
  | case3 _ _ ihl ihr => rw [mergeNull, ihl, ihr]
  | case4 _ ih => rw [mergeNull, ih]
  | case5 c hliteral hand hor hnot => exact mergeNull.eq_5 c hliteral hand hor hnot

theorem render_mergeNull (c : SqlCondition) : c.mergeNull.render = c.render := by
  fun_induction mergeNull c with
  | case1 => rfl
  | case2 _ _ ihl ihr => rw [render, render, ihl, ihr]
  | case3 _ _ ihl ihr => rw [render, render, ihl, ihr]
  | case4 _ ih => rw [render, render, ih]
  | case5 => rfl

/-- A condition that starts with a field, and what comes after the field. -/
inductive Led : SqlCondition → SqlField → List Char → Prop
  | compare (rel : Relation) (f g : SqlField) :
      Led (compare rel f g) f (' ' :: (rel.sqlToken.toList ++ ' ' :: g.chars))
  | isNull (f : SqlField) : Led (isNull f) f " IS NULL".toList
  | field (f : SqlField) : Led (field f) f []

inductive Joined : SqlCondition → LogicalOp → SqlCondition → SqlCondition → Prop
  | and (left right : SqlCondition) : Joined (and left right) .and left right
  | or (left right : SqlCondition) : Joined (or left right) .or left right

variable {c d left right : SqlCondition} {op : LogicalOp} {f g : SqlField}
variable {tail tail' : List Char}

theorem Led.chars (h : Led c f tail) : c.chars = f.chars ++ tail := by
  cases h <;> simp [SqlCondition.chars, render, SqlField.chars]

theorem Joined.chars (h : Joined c op left right) :
    c.chars = '(' :: (left.chars ++ (op.joint ++ (right.chars ++ [')']))) := by
  cases h <;> simp [SqlCondition.chars, render, LogicalOp.joint]

theorem chars_not (c : SqlCondition) :
    (not c).chars = 'N' :: 'O' :: 'T' :: ' ' :: '(' :: (c.chars ++ [')']) := by
  simp [chars, render]

theorem chars_literal (b : Bool) : (literal (some b)).chars =
    if b then ['T', 'R', 'U', 'E'] else ['F', 'A', 'L', 'S', 'E'] := by
  cases b <;> simp [chars, render]

theorem beginning (hc : c.mergeNull = c) : (∃ f tail, Led c f tail) ∨
    (∃ op left right, Joined c op left right) ∨ (∃ inner, c = not inner) ∨
    ∃ b, c = literal (some b) := by
  match c with
  | compare rel f g => exact .inl ⟨_, _, .compare rel f g⟩
  | isNull f => exact .inl ⟨_, _, .isNull f⟩
  | field f => exact .inl ⟨_, _, .field f⟩
  | and left right => exact .inr (.inl ⟨_, _, _, .and left right⟩)
  | or left right => exact .inr (.inl ⟨_, _, _, .or left right⟩)
  | not inner => exact .inr (.inr (.inl ⟨inner, rfl⟩))
  | literal none => cases hc
  | literal (some b) => exact .inr (.inr (.inr ⟨b, rfl⟩))

theorem Led.endsField (h : Led c f tail) (hr : EndsCondition r) : EndsField (tail ++ r) := by
  cases h with
  | compare _ _ _ | isNull _ => exact .blank _
  | field _ => exact hr.endsField

theorem Led.append_ne_close (h : Led c f tail) : tail ++ (op.joint ++ s) ≠ ')' :: r := by
  cases h <;> cases op <;> simp [LogicalOp.joint]

theorem Led.append_ne_operator (h : Led c f tail) (arith : ArithmeticOp) :
    tail ++ (op.joint ++ s) ≠ ' ' :: (arith.token.toList ++ r) := by
  cases h with
  | compare rel _ _ => cases arith <;> cases rel <;> simp [ArithmeticOp.token, Relation.sqlToken]
  | isNull _ => cases arith <;> simp [ArithmeticOp.token]
  | field _ => cases arith <;> cases op <;> simp [ArithmeticOp.token, LogicalOp.joint]

theorem Led.append_inj (hc : Led c f tail) (hd : Led d f tail') (hr : EndsCondition r)
    (hs : EndsCondition s) (h : tail ++ r = tail' ++ s) : c = d ∧ r = s := by
  cases hc with
  | compare rel _ _ =>
      cases hd with
      | compare rel' _ _ =>
          simp only [List.cons_append, List.append_assoc, List.cons.injEq, true_and] at h
          obtain ⟨rfl, htail⟩ := Relation.sqlToken_append_inj h
          obtain ⟨rfl, hrest⟩ := SqlField.chars_append_inj hr.endsField hs.endsField htail
          exact ⟨rfl, hrest⟩
      | isNull _ => cases rel <;> simp [Relation.sqlToken] at h
      | field _ =>
          rw [List.nil_append, List.cons_append, List.append_assoc] at h
          exact absurd (h ▸ hs) (not_endsCondition_relation rel)
  | isNull _ =>
      cases hd with
      | compare rel' _ _ => cases rel' <;> simp [Relation.sqlToken] at h
      | isNull _ => exact ⟨rfl, List.append_cancel_left h⟩
      | field _ =>
          rw [List.nil_append] at h
          exact absurd (h ▸ hs) not_endsCondition_isNull
  | field _ =>
      rw [List.nil_append] at h
      cases hd with
      | compare rel' _ _ =>
          rw [List.cons_append, List.append_assoc] at h
          exact absurd (h ▸ hr) (not_endsCondition_relation rel')
      | isNull _ => exact absurd (h ▸ hr) not_endsCondition_isNull
      | field _ => exact ⟨rfl, h⟩

theorem exists_led (hc : c.mergeNull = c)
    (hjoined : ∀ op left right, Joined c op left right → f.chars ++ r ≠ c.chars ++ s)
    (hr : EndsField r) (hs : EndsCondition s) (h : f.chars ++ r = c.chars ++ s) :
    ∃ tail, Led c f tail ∧ r = tail ++ s := by
  obtain ⟨g, tail, hled⟩ | ⟨op, left, right, hj⟩ | ⟨inner, rfl⟩ | ⟨b, rfl⟩ := beginning hc
  · rw [hled.chars, List.append_assoc] at h
    obtain ⟨rfl, htail⟩ := SqlField.chars_append_inj hr (hled.endsField hs) h
    exact ⟨tail, hled, htail⟩
  · exact absurd h (hjoined op left right hj)
  · rw [chars_not] at h
    exact absurd h SqlField.chars_append_ne_not
  · cases b <;> exact absurd h (SqlField.chars_append_ne (by decide))

theorem chars_append_ne_minus (hc : c.mergeNull = c) : c.chars ++ r ≠ '-' :: s := by
  obtain ⟨f, tail, hled⟩ | ⟨op, left, right, hj⟩ | ⟨inner, rfl⟩ | ⟨b, rfl⟩ := beginning hc
  · rw [hled.chars, List.append_assoc]
    exact SqlField.chars_append_ne (by decide)
  · simp [hj.chars]
  · simp [chars_not]
  · cases b <;> simp [chars_literal]

theorem Joined.mergeNull_left (h : Joined c op left right) (hc : c.mergeNull = c) :
    left.mergeNull = left := by
  cases h <;> injection hc

theorem Joined.mergeNull_right (h : Joined c op left right) (hc : c.mergeNull = c) :
    right.mergeNull = right := by
  cases h <;> injection hc

/-- The parenthesis of a joined condition does not open a field: after the same field, the one
goes on with a joining word or a relation, the other with an operator or its closing parenthesis. -/
theorem Joined.chars_append_ne (h : Joined c op left right) (hc : c.mergeNull = c) :
    f.chars ++ r ≠ c.chars ++ s := by
  have hleft := h.mergeNull_left hc
  -- behind the parenthesis stand the left part and the inner field: if the left part is joined
  -- itself, the induction excludes it, and if not, it is led by the inner field
  induction f generalizing c op left right r s with
  | column _ | param _ _ | null | nullIfZero _ _ => simp [h.chars]
  | cast f type ih =>
      intro heq
      simp only [h.chars, SqlField.chars_cast, List.cons_append, List.append_assoc,
        List.cons.injEq, true_and] at heq
      obtain ⟨tail, hled, htail⟩ := exists_led hleft
        (fun _ _ _ hj => ih hj hleft (hj.mergeNull_left hleft)) (.close _) (.joint op _) heq
      exact hled.append_ne_close htail.symm
  | binary arith a b iha _ =>
      intro heq
      simp only [h.chars, SqlField.chars_binary, List.cons_append, List.append_assoc,
        List.cons.injEq, true_and] at heq
      obtain ⟨tail, hled, htail⟩ := exists_led hleft
        (fun _ _ _ hj => iha hj hleft (hj.mergeNull_left hleft)) (.blank _) (.joint op _) heq
      exact hled.append_ne_operator arith htail.symm
  | negate f _ =>
      intro heq
      simp only [h.chars, SqlField.chars_negate, List.cons_append, List.append_assoc,
        List.cons.injEq, true_and] at heq
      exact chars_append_ne_minus hleft heq.symm

/-- A condition that is read off the head of a text in one way. -/
def Readable (c : SqlCondition) : Prop :=
  ∀ ⦃d : SqlCondition⦄ ⦃r s : List Char⦄, d.mergeNull = d → EndsCondition r → EndsCondition s →
    c.chars ++ r = d.chars ++ s → c = d ∧ r = s

theorem Led.readable (hled : Led c f tail) : c.Readable := by
  intro d r s hd hr hs h
  rw [hled.chars, List.append_assoc] at h
  obtain ⟨tail', hled', htail⟩ := exists_led hd (fun _ _ _ hj => hj.chars_append_ne hd)
    (hled.endsField hr) hs h
  exact hled.append_inj hled' hr hs htail

theorem Joined.readable (hj : Joined c op left right) (hc : c.mergeNull = c)
    (hleft : left.Readable) (hright : right.Readable) : c.Readable := by
  intro d r s hd hr hs h
  obtain ⟨f, tail, hled⟩ | ⟨op', left', right', hj'⟩ | ⟨inner, rfl⟩ | ⟨b, rfl⟩ := beginning hd
  · obtain ⟨rfl, rfl⟩ := hled.readable hc hs hr h.symm
    exact ⟨rfl, rfl⟩
  · simp only [hj.chars, hj'.chars, List.cons_append, List.append_assoc, List.cons.injEq,
      true_and] at h
    obtain ⟨rfl, htail⟩ := hleft (hj'.mergeNull_left hd) (.joint op _) (.joint op' _) h
    obtain ⟨rfl, hsecond⟩ := LogicalOp.joint_append_inj htail
    obtain ⟨rfl, hrest⟩ := hright (hj'.mergeNull_right hd) (.close _) (.close _) hsecond
    refine ⟨?_, (List.cons.inj hrest).2⟩
    cases hj <;> cases hj' <;> rfl
  · simp [hj.chars, chars_not] at h
  · cases b <;> simp [hj.chars, chars_literal] at h

theorem readable_not (hc : (not c).mergeNull = not c) (ih : c.Readable) : (not c).Readable := by
  intro d r s hd hr hs h
  obtain ⟨f, tail, hled⟩ | ⟨op, left, right, hj⟩ | ⟨inner, rfl⟩ | ⟨b, rfl⟩ := beginning hd
  · obtain ⟨rfl, rfl⟩ := hled.readable hc hs hr h.symm
    exact ⟨rfl, rfl⟩
  · simp [hj.chars, chars_not] at h
  · simp only [chars_not, List.cons_append, List.append_assoc, List.cons.injEq, true_and] at h
    obtain ⟨rfl, hrest⟩ := ih (not.inj hd) (.close _) (.close _) h
    exact ⟨rfl, (List.cons.inj hrest).2⟩
  · cases b <;> simp [chars_not, chars_literal] at h

theorem readable_literal (b : Bool) : (literal (some b)).Readable := by
  intro d r s hd hr hs h
  obtain ⟨f, tail, hled⟩ | ⟨op, left, right, hj⟩ | ⟨inner, rfl⟩ | ⟨b', rfl⟩ := beginning hd
  · obtain ⟨rfl, rfl⟩ := hled.readable rfl hs hr h.symm
    exact ⟨rfl, rfl⟩
  · cases b <;> simp [hj.chars, chars_literal] at h
  · cases b <;> simp [chars_not, chars_literal] at h
  · rw [chars_literal, chars_literal] at h
    cases b <;> cases b' <;> simp at h ⊢ <;> exact h

theorem readable (hc : c.mergeNull = c) : c.Readable := by
  induction c with
  | compare rel f g => exact (Led.compare rel f g).readable
  | isNull f => exact (Led.isNull f).readable
  | field f => exact (Led.field f).readable
  | and left right ihl ihr =>
      have hj := Joined.and left right
      exact hj.readable hc (ihl (hj.mergeNull_left hc)) (ihr (hj.mergeNull_right hc))
  | or left right ihl ihr =>
      have hj := Joined.or left right
      exact hj.readable hc (ihl (hj.mergeNull_left hc)) (ihr (hj.mergeNull_right hc))
  | not inner ih => exact readable_not hc (ih (not.inj hc))
  | literal value =>
      cases value with
      | none => cases hc
      | some b => exact readable_literal b

/-- Two conditions have the same text exactly if they are the same tree, but for the unknown
literal and the null field, which are both written `NULL`. -/
theorem render_eq_render_iff (c d : SqlCondition) :
    c.render = d.render ↔ c.mergeNull = d.mergeNull := by
  constructor
  · intro h
    have hchars : c.mergeNull.chars ++ [] = d.mergeNull.chars ++ [] := by
      rw [chars, chars, render_mergeNull, render_mergeNull, h]
    exact (readable c.mergeNull_mergeNull d.mergeNull_mergeNull .nil .nil hchars).1
  · intro h
    rw [← render_mergeNull c, h, render_mergeNull]

end SqlCondition

end LiveFilter
