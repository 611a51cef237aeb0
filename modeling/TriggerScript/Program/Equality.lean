import TriggerScript.Program

/-!
# Equality of programs

Two syntax trees are compared part by part, which decides whether they are equal.
-/

namespace TriggerScript

mutual

/-- Decides whether two values are equal. -/
def Value.decEq : (a b : Value) → Decidable (a = b)
  | ⟨k, x⟩, ⟨k', x'⟩ =>
    match k.decEq k' with
    | isTrue h => decidable_of_iff (x = x') (by simp [h])
    | isFalse h => isFalse (by simp [h])

/-- Decides whether two kinds of values are equal. -/
def ValueKind.decEq (a b : ValueKind) : Decidable (a = b) :=
  if hkind : a.ctorIdx = b.ctorIdx then
    match a, b, hkind with
    | .literal l, .literal l', _ => decidable_of_iff (l = l') (by simp)
    | .presetMember p m, .presetMember p' m', _ => decidable_of_iff (p = p' ∧ m = m') (by simp)
    | .variable n, .variable n', _ => decidable_of_iff (n = n') (by simp)
    | .arrayElement n is, .arrayElement n' is', _ =>
      match Value.decEqList is is' with
      | isTrue h => decidable_of_iff (n = n') (by simp [h])
      | isFalse h => isFalse (by simp [h])
    | .call c, .call c', _ =>
      match c.decEq c' with
      | isTrue h => isTrue (by simp [h])
      | isFalse h => isFalse (by simp [h])
    | .block b, .block b', _ =>
      match b.decEq b' with
      | isTrue h => isTrue (by simp [h])
      | isFalse h => isFalse (by simp [h])
  else isFalse (mt (congrArg ValueKind.ctorIdx) hkind)

/-- Decides whether two calls are equal. -/
def Call.decEq : (a b : Call) → Decidable (a = b)
  | ⟨f, args, x⟩, ⟨f', args', x'⟩ =>
    match Value.decEqList args args' with
    | isTrue h => decidable_of_iff (f = f' ∧ x = x') (by simp [h])
    | isFalse h => isFalse (by simp [h])

/-- Decides whether two blocks are equal. -/
def Block.decEq : (a b : Block) → Decidable (a = b)
  | ⟨locals, statements⟩, ⟨locals', statements'⟩ =>
    match VariableDef.decEqList locals locals', Call.decEqList statements statements' with
    | isTrue h, isTrue h' => isTrue (by simp [h, h'])
    | isFalse h, _ => isFalse (by simp [h])
    | _, isFalse h => isFalse (by simp [h])

/-- Decides whether two variables are equal. -/
def VariableDef.decEq : (a b : VariableDef) → Decidable (a = b)
  | ⟨as, t, n, v, x⟩, ⟨as', t', n', v', x'⟩ =>
    match v.decEq v' with
    | isTrue h => decidable_of_iff (as = as' ∧ t = t' ∧ n = n' ∧ x = x') (by simp [h])
    | isFalse h => isFalse (by simp [h])

/-- Decides whether two lists of values are equal. -/
def Value.decEqList : (a b : List Value) → Decidable (a = b)
  | [], [] => isTrue rfl
  | [], _ :: _ => isFalse (by simp)
  | _ :: _, [] => isFalse (by simp)
  | a :: as, b :: bs =>
    match a.decEq b, Value.decEqList as bs with
    | isTrue h, isTrue h' => isTrue (by simp [h, h'])
    | isFalse h, _ => isFalse (by simp [h])
    | _, isFalse h => isFalse (by simp [h])

/-- Decides whether two lists of calls are equal. -/
def Call.decEqList : (a b : List Call) → Decidable (a = b)
  | [], [] => isTrue rfl
  | [], _ :: _ => isFalse (by simp)
  | _ :: _, [] => isFalse (by simp)
  | a :: as, b :: bs =>
    match a.decEq b, Call.decEqList as bs with
    | isTrue h, isTrue h' => isTrue (by simp [h, h'])
    | isFalse h, _ => isFalse (by simp [h])
    | _, isFalse h => isFalse (by simp [h])

/-- Decides whether two lists of variables are equal. -/
def VariableDef.decEqList : (a b : List VariableDef) → Decidable (a = b)
  | [], [] => isTrue rfl
  | [], _ :: _ => isFalse (by simp)
  | _ :: _, [] => isFalse (by simp)
  | a :: as, b :: bs =>
    match a.decEq b, VariableDef.decEqList as bs with
    | isTrue h, isTrue h' => isTrue (by simp [h, h'])
    | isFalse h, _ => isFalse (by simp [h])
    | _, isFalse h => isFalse (by simp [h])

end

instance : DecidableEq Value := Value.decEq
instance : DecidableEq ValueKind := ValueKind.decEq
instance : DecidableEq Call := Call.decEq
instance : DecidableEq Block := Block.decEq
instance : DecidableEq VariableDef := VariableDef.decEq

deriving instance DecidableEq for ParamDef
deriving instance DecidableEq for FunctionDef
deriving instance DecidableEq for TriggerDef
deriving instance DecidableEq for Definition
deriving instance DecidableEq for ExternalParam
deriving instance DecidableEq for ExternalFunction
deriving instance DecidableEq for ExternalDefinition
deriving instance DecidableEq for ImportScope
deriving instance DecidableEq for LibraryScope
deriving instance DecidableEq for Scope
deriving instance DecidableEq for Program

end TriggerScript
