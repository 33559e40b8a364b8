import FragmentBuild.TypeExpr

/-! Policies that give host types for embedded types. A policy is an ordered list of
rules; the first rule that answers decides. -/
namespace FragmentBuild

inductive Rule where
  /-- One type and its host type. -/
  | exact (type : TypeExpr) (host : HostType)
  /-- Raw pointers to every type that the whole policy maps. -/
  | rawPointer
  deriving DecidableEq, Repr

structure Policy where
  rules : List Rule
  deriving DecidableEq, Repr, Inhabited

namespace Policy

def empty : Policy := ⟨[]⟩

def isEmpty (policy : Policy) : Bool := policy.rules.isEmpty

def ofPairs (pairs : List (String × String)) : Policy :=
  ⟨pairs.map fun pair => .exact (.parse pair.1) ⟨pair.2⟩⟩

def primitives : List (String × String) :=
  [("i8", "int8_t"), ("i16", "int16_t"), ("i32", "int32_t"), ("i64", "int64_t"),
   ("u8", "uint8_t"), ("u16", "uint16_t"), ("u32", "uint32_t"), ("u64", "uint64_t"),
   ("isize", "ptrdiff_t"), ("usize", "size_t"), ("f32", "float"), ("f64", "double"),
   ("bool", "bool"), ("char", "uint32_t"), ("()", "void")]

/-- Numbers of fixed width, truth values, characters, the unit type and raw pointers. -/
def basic : Policy := ⟨(ofPairs primitives).rules ++ [.rawPointer]⟩

/-- Asks `first` before `second`. -/
def compose (first second : Policy) : Policy := ⟨first.rules ++ second.rules⟩

/-- The host type of `type`, if some rule answers. A pointer rule asks the whole policy for
the target, which is a shorter expression. -/
def lookup (policy : Policy) (type : TypeExpr) : Option HostType :=
  policy.rules.findSome? fun rule =>
    match rule with
    | .exact known host => if known = type then some host else none
    | .rawPointer =>
      match _pointer : type.pointee? with
      | none => none
      | some (target, qualifier) => (policy.lookup target).map qualifier.pointerTo
termination_by type.length
decreasing_by exact TypeExpr.length_pointee?_lt _pointer

end Policy

end FragmentBuild
