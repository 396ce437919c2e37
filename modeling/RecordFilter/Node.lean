/-
# Filter expressions

The tree of a filter expression: comparisons under conjunctions and disjunctions. Equality of trees
is decidable; the two halves of that are `eq_of_same` and `same_self`.
-/
import RecordFilter.Operator

namespace RecordFilter

/-- One `selector operator arguments` clause. -/
structure Comparison where
  /-- the dotted path of the property -/
  selector : String
  operator : Operator
  /-- the texts of the arguments, escapes undone -/
  arguments : List String
deriving DecidableEq, Inhabited

/-- A filter expression. A parser makes `all` and `any` nodes of two children or more. -/
inductive Node where
  | all (children : List Node)
  | any (children : List Node)
  | comparison (clause : Comparison)
deriving Inhabited

namespace Node

/-- One node for a group: the only child stands for itself. -/
def group (make : List Node → Node) : List Node → Node
  | [child] => child
  | children => make children

/-! ## Equality -/

mutual

/-- Whether two trees are the same. -/
def same : Node → Node → Bool
  | all as, all bs => sameList as bs
  | any as, any bs => sameList as bs
  | comparison a, comparison b => a == b
  | _, _ => false

def sameList : List Node → List Node → Bool
  | [], [] => true
  | a :: as, b :: bs => same a b && sameList as bs
  | _, _ => false

end

mutual

theorem eq_of_same : ∀ {a b : Node}, same a b = true → a = b
  | all as, b, h => by
    cases b <;> simp only [same, Bool.false_eq_true] at h
    rw [eq_of_sameList h]
  | any as, b, h => by
    cases b <;> simp only [same, Bool.false_eq_true] at h
    rw [eq_of_sameList h]
  | comparison a, b, h => by
    cases b <;> simp only [same, Bool.false_eq_true, beq_iff_eq] at h
    rw [h]

theorem eq_of_sameList : ∀ {as bs : List Node}, sameList as bs = true → as = bs
  | [], [], _ => rfl
  | [], _ :: _, h => by simp [sameList] at h
  | _ :: _, [], h => by simp [sameList] at h
  | a :: as, b :: bs, h => by
    simp only [sameList, Bool.and_eq_true] at h
    rw [eq_of_same h.1, eq_of_sameList h.2]

end

mutual

theorem same_self : ∀ a : Node, same a a = true
  | all as => by simp only [same, sameList_self as]
  | any as => by simp only [same, sameList_self as]
  | comparison _ => by simp only [same, beq_self_eq_true]

theorem sameList_self : ∀ as : List Node, sameList as as = true
  | [] => rfl
  | a :: as => by simp only [sameList, same_self a, sameList_self as, Bool.and_self]

end

instance : DecidableEq Node := fun a b =>
  if h : same a b = true then isTrue (eq_of_same h)
  else isFalse fun e => h (e ▸ same_self a)

end Node

end RecordFilter
