import LiveFilter.Path
import LiveFilter.Proofs.Text.Digits
import LiveFilter.Proofs.Text.Quoted
import Mathlib.Data.List.Nodup

/-! # Texts of paths

A path can be read off its text. Every element begins with a name, which has no slash and no
parenthesis in it, and all the names of sets, single entities and properties are different. What an
identifier has between its parentheses may be anything, but it is either a numeral or a text in
quotes, and both show where they end.
-/

namespace LiveFilter

variable {r s : List Char}

theorem Json.intText_append_inj {m n : Int} (hr : EndsDigits r) (hs : EndsDigits s)
    (h : (intText m).toList ++ r = (intText n).toList ++ s) : m = n ∧ r = s := by
  have hminus {k : Nat} {t u : List Char} : Nat.toDigits 10 k ++ t ≠ '-' :: u :=
    toDigits_append_ne rfl
  unfold intText at h
  split at h <;> split at h <;>
    simp only [String.toList_append, Nat.toList_repr, String.reduceToList, List.cons_append,
      List.nil_append, List.cons.injEq, true_and] at h
  · obtain ⟨habs, hrest⟩ := toDigits_append_inj hr hs h
    exact ⟨by omega, hrest⟩
  · exact absurd h.symm hminus
  · exact absurd h hminus
  · obtain ⟨habs, hrest⟩ := toDigits_append_inj hr hs h
    exact ⟨by omega, hrest⟩

namespace Id

theorem toList_display_text (text : String) :
    (Id.text text).display.toList = '\'' :: (Quoted.double '\'' text.toList ++ ['\'']) := by
  simp [display, Quoted.wrapChars]

theorem intText_append_ne {n : Int} : (Json.intText n).toList ++ r ≠ '\'' :: s := by
  unfold Json.intText
  split
  · simp
  · rw [Nat.toList_repr]
    exact toDigits_append_ne rfl

theorem display_append_inj {i j : Id}
    (h : i.display.toList ++ ')' :: r = j.display.toList ++ ')' :: s) : i = j ∧ r = s := by
  cases i with
  | long m =>
      cases j with
      | long n =>
          obtain ⟨hvalue, hrest⟩ := Json.intText_append_inj (.cons _ rfl) (.cons _ rfl) h
          exact ⟨congrArg long (Int64.toInt_inj.1 hvalue), (List.cons.inj hrest).2⟩
      | text text' =>
          rw [toList_display_text, List.cons_append] at h
          exact absurd h intText_append_ne
  | text text =>
      cases j with
      | long n =>
          rw [toList_display_text, List.cons_append] at h
          exact absurd h.symm intText_append_ne
      | text text' =>
          simp only [toList_display_text, List.cons_append, List.append_assoc, List.nil_append,
            List.cons.injEq, true_and] at h
          obtain ⟨htext, hrest⟩ := Quoted.double_append_inj (by simp) (by simp) h
          exact ⟨congrArg Id.text (String.toList_injective htext), (List.cons.inj hrest).2⟩

end Id

inductive PathName where
  | set (type : EntityType)
  | single (type : EntityType)
  | property (property : EntityProperty)

namespace PathName

def text : PathName → String
  | set t => t.plural
  | single t => t.name
  | property p => p.wireName

def all : List PathName :=
  EntityType.all.map set ++ EntityType.all.map single ++ EntityProperty.all.map property

theorem mem_all (n : PathName) : n ∈ all := by
  cases n with
  | set t => simp [all, t.mem_all]
  | single t => simp [all, t.mem_all]
  | property p => simp [all, p.mem_all]

theorem text_injective {n m : PathName} (h : n.text = m.text) : n = m := by
  have hnodup : (all.map text).Nodup := by decide +kernel
  exact List.inj_on_of_nodup_map hnodup n.mem_all m.mem_all h

theorem text_ne_nil (n : PathName) : n.text.toList ≠ [] := by
  have hnames : ∀ n ∈ all, n.text.toList ≠ [] := by decide +kernel
  exact hnames n n.mem_all

def isMark (c : Char) : Bool := c == '(' || c == '/'

theorem isMark_eq_false {n : PathName} {c : Char} (hc : c ∈ n.text.toList) : isMark c = false := by
  have hnames : ∀ n ∈ all, n.text.toList.any isMark = false := by decide +kernel
  exact Bool.eq_false_iff.2 (List.any_eq_false.1 (hnames n n.mem_all) c hc)

end PathName

/-- What may stand after an element: nothing, or a slash. -/
inductive EndsElement : List Char → Prop
  | nil : EndsElement []
  | slash (cs : List Char) : EndsElement ('/' :: cs)

namespace PathElement

/-- The name, and the identifier in parentheses behind it. -/
def spelling : PathElement → PathName × Option Id
  | entitySet t => (.set t, none)
  | entity t (some id) => (.set t, some id)
  | entity t none => (.single t, none)
  | property p => (.property p, none)

theorem spelling_injective {e f : PathElement} (h : e.spelling = f.spelling) : e = f := by
  match e, f with
  | entitySet _, entitySet _ | entity _ none, entity _ none | entity _ (some _), entity _ (some _)
  | property _, property _ =>
      cases h
      rfl
  | entitySet _, entity _ none | entitySet _, entity _ (some _) | entitySet _, property _
  | entity _ none, entitySet _ | entity _ none, entity _ (some _) | entity _ none, property _
  | entity _ (some _), entitySet _ | entity _ (some _), entity _ none
  | entity _ (some _), property _ | property _, entitySet _ | property _, entity _ none
  | property _, entity _ (some _) => cases h

def keyChars : Option Id → List Char
  | none => []
  | some id => '(' :: (id.display.toList ++ [')'])

theorem toList_display (e : PathElement) :
    e.display.toList = e.spelling.1.text.toList ++ keyChars e.spelling.2 := by
  match e with
  | entitySet t => simp [display, spelling, PathName.text, keyChars]
  | entity t none => simp [display, spelling, PathName.text, keyChars]
  | entity t (some id) => simp [display, spelling, PathName.text, keyChars]
  | property p => simp [display, spelling, PathName.text, keyChars]

theorem display_append_ne_nil {e : PathElement} : e.display.toList ++ r ≠ [] := by
  simp [toList_display, e.spelling.1.text_ne_nil]

theorem keyChars_append_inj {i j : Option Id} (hr : EndsElement r) (hs : EndsElement s)
    (h : keyChars i ++ r = keyChars j ++ s) : i = j ∧ r = s := by
  cases i with
  | none =>
      cases j with
      | none => exact ⟨rfl, h⟩
      | some id =>
          simp only [keyChars, List.nil_append, List.cons_append] at h
          subst h
          cases hr
  | some id =>
      cases j with
      | none =>
          simp only [keyChars, List.nil_append, List.cons_append] at h
          subst h
          cases hs
      | some id' =>
          simp only [keyChars, List.cons_append, List.append_assoc, List.nil_append,
            List.cons.injEq, true_and] at h
          obtain ⟨rfl, hrest⟩ := Id.display_append_inj h
          exact ⟨rfl, hrest⟩

theorem takeWhile_name {n : PathName} {i : Option Id} (hr : EndsElement r) :
    (n.text.toList ++ (keyChars i ++ r)).takeWhile (!PathName.isMark ·) = n.text.toList := by
  have hname : ∀ c ∈ n.text.toList, !PathName.isMark c := by
    intro c hc
    rw [PathName.isMark_eq_false hc]
    rfl
  have hmark : (keyChars i ++ r).takeWhile (!PathName.isMark ·) = [] := by
    cases i with
    | none => cases hr <;> rfl
    | some id => rfl
  rw [List.takeWhile_append_of_pos hname, hmark, List.append_nil]

/-- An element is read off the head of a text in one way. -/
theorem display_append_inj {e f : PathElement} (hr : EndsElement r) (hs : EndsElement s)
    (h : e.display.toList ++ r = f.display.toList ++ s) : e = f ∧ r = s := by
  rw [toList_display, toList_display, List.append_assoc, List.append_assoc] at h
  have hname : e.spelling.1.text.toList = f.spelling.1.text.toList := by
    rw [← takeWhile_name hr, h, takeWhile_name hs]
  rw [hname] at h
  obtain ⟨hkey, hrest⟩ := keyChars_append_inj hr hs (List.append_cancel_left h)
  have hnames := PathName.text_injective (String.toList_injective hname)
  exact ⟨spelling_injective (Prod.ext hnames hkey), hrest⟩

end PathElement

namespace ResourcePath

def tailChars : List PathElement → List Char
  | [] => []
  | e :: es => '/' :: (e.display.toList ++ tailChars es)

theorem endsElement_tailChars (es : List PathElement) : EndsElement (tailChars es) := by
  cases es with
  | nil => exact .nil
  | cons e es => exact .slash _

theorem toList_joinSlash_cons (e : PathElement) (es : List PathElement) :
    (joinSlash ((e :: es).map PathElement.display)).toList =
      e.display.toList ++ tailChars es := by
  induction es generalizing e with
  | nil => simp [joinSlash, tailChars]
  | cons f es ih =>
      rw [List.map_cons, joinSlash_cons _ (by simp), String.toList_append, String.toList_append,
        ih f]
      simp [tailChars]

theorem tailChars_injective {es fs : List PathElement} (h : tailChars es = tailChars fs) :
    es = fs := by
  induction es generalizing fs with
  | nil =>
      cases fs with
      | nil => rfl
      | cons f fs => cases h
  | cons e es ih =>
      cases fs with
      | nil => cases h
      | cons f fs =>
          obtain ⟨rfl, htail⟩ := PathElement.display_append_inj (endsElement_tailChars es)
            (endsElement_tailChars fs) (List.cons.inj h).2
          rw [ih htail]

theorem joinSlash_injective {es fs : List PathElement}
    (h : joinSlash (es.map PathElement.display) = joinSlash (fs.map PathElement.display)) :
    es = fs := by
  have hchars := congrArg String.toList h
  cases es with
  | nil =>
      cases fs with
      | nil => rfl
      | cons f fs =>
          rw [toList_joinSlash_cons] at hchars
          exact absurd hchars.symm PathElement.display_append_ne_nil
  | cons e es =>
      cases fs with
      | nil =>
          rw [toList_joinSlash_cons] at hchars
          exact absurd hchars PathElement.display_append_ne_nil
      | cons f fs =>
          rw [toList_joinSlash_cons, toList_joinSlash_cons] at hchars
          obtain ⟨rfl, htail⟩ := PathElement.display_append_inj (endsElement_tailChars es)
            (endsElement_tailChars fs) hchars
          rw [tailChars_injective htail]

/-- Two paths have the same text only if they are the same path, whatever stands in the texts of
their identifiers, and so have two identifiers. -/
theorem display_identifies :
    (∀ p q : ResourcePath, p.display = q.display ↔ p = q) ∧
      ∀ i j : Id, i.display = j.display ↔ i = j := by
  constructor
  · intro p q
    constructor
    · intro h
      exact congrArg ResourcePath.mk (joinSlash_injective h)
    · rintro rfl
      rfl
  · intro i j
    constructor
    · intro h
      exact (Id.display_append_inj (r := []) (s := []) (by rw [h])).1
    · rintro rfl
      rfl

/-- A slash in an identifier is none between elements, nor is a parenthesis the end of it. -/
example :
    let inside : ResourcePath := ⟨[.entity .thing (some (.text "1')/Datastreams(2"))]⟩
    let between : ResourcePath :=
      ⟨[.entity .thing (some (.text "1")), .entity .datastream (some (.long 2))]⟩
    inside.display = "Things('1'')/Datastreams(2')" ∧
      between.display = "Things('1')/Datastreams(2)" := by
  decide +kernel

end ResourcePath

end LiveFilter
