import LiveFilter.Proofs.Conditions

/-! # How arithmetic results come about

Arithmetic gives null when an operand is null, combines the terms of two operands into one, or moves
both bounds of an interval. The kind of the result depends on the kinds of the operands only.
-/

namespace LiveFilter

open Expression (arithmeticKind)
open Outcome (bind_eq_ok map_eq_ok)

variable {τ κ : Type}

namespace Rules

inductive Computed (alg : Algebra τ κ) (op : ArithmeticOp) :
    Operand τ κ → Operand τ κ → Operand τ κ → Prop
  | null {l r : Operand τ κ} (h : l = .null ∨ r = .null) : Computed alg op l r .null
  | joined {l r o : Operand τ κ} {a b v : τ} (shape : ArithmeticShape)
      (hl : l.terms = [a]) (hr : r.terms = [b]) (ho : o.terms = [v])
      (hv : alg.arithmetic op shape a b = .ok v ∨ alg.arithmetic op shape b a = .ok v)
      (hkind : o.kind = arithmeticKind l.kind r.kind) : Computed alg op l r o
  | moved {s e d s' e' : τ} (hs : alg.arithmetic op .instantDuration s d = .ok s')
      (he : alg.arithmetic op .instantDuration e d = .ok e') :
      Computed alg op (.interval s e) (.duration d) (.interval s' e')

variable {alg : Algebra τ κ} {op : ArithmeticOp} {l r o : Operand τ κ}

theorem computed_of_arithmetic (h : arithmetic alg op l r = .ok o) : Computed alg op l r o := by
  cases l with
  | null =>
      cases r with
      | condition _ => cases h
      | _ =>
          cases h
          exact .null (.inl rfl)
  | condition _ => cases h
  | scalar a =>
      cases r with
      | null =>
          cases h
          exact .null (.inr rfl)
      | scalar b =>
          obtain ⟨v, hv, rfl⟩ := map_eq_ok.1 h
          exact .joined .numbers rfl rfl rfl (.inl hv) rfl
      | duration d =>
          cases op with
          | mul =>
              obtain ⟨v, hv, rfl⟩ := map_eq_ok.1 h
              exact .joined .durationScalar rfl rfl rfl (.inr hv) rfl
          | _ => cases h
      | _ => cases h
  | instant t =>
      cases r with
      | null =>
          cases h
          exact .null (.inr rfl)
      | duration d =>
          cases op with
          | add | sub =>
              obtain ⟨v, hv, rfl⟩ := map_eq_ok.1 h
              exact .joined .instantDuration rfl rfl rfl (.inl hv) rfl
          | _ => cases h
      | instant u =>
          cases op with
          | sub =>
              obtain ⟨v, hv, rfl⟩ := map_eq_ok.1 h
              exact .joined .instantInstant rfl rfl rfl (.inl hv) rfl
          | _ => cases h
      | _ => cases h
  | duration d =>
      cases r with
      | null =>
          cases h
          exact .null (.inr rfl)
      | duration d' =>
          cases op with
          | add | sub =>
              obtain ⟨v, hv, rfl⟩ := map_eq_ok.1 h
              exact .joined .durationDuration rfl rfl rfl (.inl hv) rfl
          | _ => cases h
      | instant t =>
          cases op with
          | add =>
              obtain ⟨v, hv, rfl⟩ := map_eq_ok.1 h
              exact .joined .instantDuration rfl rfl rfl (.inr hv) rfl
          | _ => cases h
      | scalar b =>
          cases op with
          | mul | div =>
              obtain ⟨v, hv, rfl⟩ := map_eq_ok.1 h
              exact .joined .durationScalar rfl rfl rfl (.inl hv) rfl
          | _ => cases h
      | _ => cases h
  | interval s e =>
      cases r with
      | null =>
          cases h
          exact .null (.inr rfl)
      | duration d =>
          cases op with
          | add | sub =>
              obtain ⟨s', hs, h⟩ := bind_eq_ok.1 h
              obtain ⟨e', he, h⟩ := bind_eq_ok.1 h
              cases h
              exact .moved hs he
          | _ => cases h
      | _ => cases h

namespace Computed

theorem eq_null (h : Computed alg op l r o) (hnull : l = .null ∨ r = .null) : o = .null := by
  cases h with
  | null _ => rfl
  | joined _ hl hr _ _ _ => obtain rfl | rfl := hnull <;> first | cases hl | cases hr
  | moved _ _ => obtain h | h := hnull <;> cases h

theorem kind_eq (h : Computed alg op l r o) : o.kind = arithmeticKind l.kind r.kind := by
  cases h with
  | null hnull =>
      obtain rfl | rfl := hnull
      · rfl
      · cases l <;> rfl
  | joined _ _ _ _ _ hkind => exact hkind
  | moved _ _ => rfl

end Computed

theorem kind_of_negate (h : negate alg l = .ok o) : o.kind = l.kind := by
  cases l with
  | null =>
      cases h
      rfl
  | scalar _ | duration _ =>
      obtain ⟨_, _, rfl⟩ := map_eq_ok.1 h
      rfl
  | _ => cases h

end Rules

end LiveFilter
