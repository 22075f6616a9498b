import Harvest.TypeScript.Grammar.Basic

/-!
# Targets and patterns

Until the `=` or the `=>` behind it has been read, a pattern looks like an expression. These functions
say of an expression whether it may be assigned to and whether it reads as a pattern.
-/

namespace Harvest.TypeScript.Grammar

open Harvest.TypeScript.Parser

/-- The expression belongs to an optional chain. A `!` behind it changes nothing. -/
def isChain : Tree → Bool
  | .call _ chained .. => chained
  | .node (.member _ chained) .. => chained
  | .node .typed _ [operand] => isChain operand
  | _ => false

def isArrow (tree : Tree) : Bool := tree.form? == some .arrow

/-- The expression names one place that can be assigned to. -/
def isSimpleTarget : Tree → Bool
  | .node (.identifier name) .. => !isRestricted name
  | .node (.member _ chained) .. => !chained
  | .node .superMember .. => true
  | .node .paren _ [inner] => isSimpleTarget inner
  | .node .typed _ (operand :: _) => isSimpleTarget operand
  | .node .instantiation _ (operand :: _) => isSimpleTarget operand
  | _ => false

/-- The operand of an increment, which may also be a call: that fails when it runs, not before. -/
def isUpdateTarget : Tree → Bool
  | .call _ chained .. => !chained
  | .node .paren _ [inner] => isUpdateTarget inner
  | tree => isSimpleTarget tree

mutual

/-- The expression reads as a pattern. A pattern that `binds` holds only identifiers at its ends; one
that assigns may hold any simple target. -/
def isPattern (binds : Bool) : Tree → Bool
  | .node (.identifier name) .. => binds || !isRestricted name
  | .node (.array trailing) _ elements => arePatterns binds false trailing elements
  | .node (.object trailing) _ properties => arePatterns binds true trailing properties
  | .node (.assignment true) .. => true
  | .node (.shorthand _) .. => true
  | .node (.shorthandDefault _) .. => true
  | .node .hole .. => true
  | .node .property _ [_, value] => isPattern binds value
  | tree => !binds && isSimpleTarget tree

/-- The elements of an array or the properties of an object read as patterns. A spread stands last,
and no comma follows it; in an object that binds, it collects into an identifier. -/
def arePatterns (binds inObject trailing : Bool) : List Tree → Bool
  | [] => true
  | .node .spread _ [target] :: more =>
    more.isEmpty && !trailing && isPattern binds target && target.form? != some (.assignment true) &&
      (!(binds && inObject) || target.name?.isSome)
  | element :: more => isPattern binds element && arePatterns binds inObject trailing more

end

mutual

/-- A name that may not be bound occurs in a parameter. -/
def bindsRestricted : Tree → Bool
  | .node (.identifier name) .. => isRestricted name
  | .node (.array _) _ parts => anyBindsRestricted parts
  | .node (.object _) _ parts => anyBindsRestricted parts
  | .node (.shorthand name) .. => isRestricted name
  | .node (.shorthandDefault name) .. => isRestricted name
  | .node .property _ [_, value] => bindsRestricted value
  | .node .spread _ [target] => bindsRestricted target
  | .node .rest _ (target :: _) => bindsRestricted target
  | .node (.assignment _) _ (target :: _) => bindsRestricted target
  | .node .bindingDefault _ (target :: _) => bindsRestricted target
  | _ => false

def anyBindsRestricted : List Tree → Bool
  | [] => false
  | tree :: more => bindsRestricted tree || anyBindsRestricted more

end

mutual

/-- A shorthand property with a default stands where no pattern is. Functions are not searched. -/
def strayDefault : Tree → Bool
  | .call _ _ callee arguments _ => strayDefault callee || anyStrayDefault arguments
  | .node .function .. => false
  | .node .arrow .. => false
  | .node (.shorthandDefault _) .. => true
  | .node (.assignment true) _ [target, value] => strayDefaultInPattern target || strayDefault value
  | .node _ _ parts => anyStrayDefault parts

/-- The same inside of a pattern, where only the defaults and the keys are expressions. -/
def strayDefaultInPattern : Tree → Bool
  | .call _ _ callee arguments _ => strayDefault callee || anyStrayDefault arguments
  | .node .function .. => false
  | .node .arrow .. => false
  | .node (.shorthandDefault _) _ parts => anyStrayDefault parts
  | .node (.assignment true) _ [target, value] => strayDefaultInPattern target || strayDefault value
  | .node (.array _) _ parts => anyStrayDefaultInPattern parts
  | .node (.object _) _ parts => anyStrayDefaultInPattern parts
  | .node .spread _ parts => anyStrayDefaultInPattern parts
  | .node .property _ [key, value] => strayDefault key || strayDefaultInPattern value
  | .node _ _ parts => anyStrayDefault parts

def anyStrayDefault : List Tree → Bool
  | [] => false
  | tree :: more => strayDefault tree || anyStrayDefault more

def anyStrayDefaultInPattern : List Tree → Bool
  | [] => false
  | tree :: more => strayDefaultInPattern tree || anyStrayDefaultInPattern more

end

/-- An expression in which every shorthand default belongs to a pattern. -/
def withoutStrayDefaults (tree : Tree) : Parser Tree := do
  mistakeIf (strayDefault tree)
  return tree

/-- The left side of a plain assignment: a pattern, or one simple target. -/
def isAssignable (tree : Tree) : Bool :=
  match tree.form? with
  | some (.array _) | some (.object _) => isPattern false tree
  | _ => isSimpleTarget tree

end Harvest.TypeScript.Grammar
