import Harvest.Message.Call

/-!
# The order of calls

A tree inside of a module has an address: which item it is in, then which part of each tree on the way
down. The calls of a module are listed in the order of their addresses, compared number by number, and
every address of a call is in the list. An address comes before all that continue it, so that a call
comes before the calls inside of it.
-/

namespace Harvest

open TypeScript (Tree)

/-- The way down to a tree, one number for each level. -/
abbrev Address := List Nat

namespace TypeScript.Tree

/-- What holds of a tree whenever it holds of its parts holds of every tree. -/
theorem induction {motive : Tree → Prop}
    (step : ∀ tree : Tree, (∀ part ∈ tree.parts, motive part) → motive tree) (tree : Tree) :
    motive tree :=
  @Tree.rec motive (fun trees => ∀ tree ∈ trees, motive tree)
    (fun span chained callee arguments types inCallee inArguments inTypes =>
      step (.call span chained callee arguments types) (by
        simp only [parts, List.mem_cons, List.mem_append]
        rintro part (rfl | inside | inside)
        · exact inCallee
        · exact inArguments part inside
        · exact inTypes part inside))
    (fun form span parts inParts => step (.node form span parts) inParts)
    nofun
    (fun _ _ first others => List.forall_mem_cons.mpr ⟨first, others⟩)
    tree

/-- The call that a tree is. -/
def call? : Tree → Option CallSite
  | .call span chained callee arguments _ => some (.ofCall span chained callee arguments)
  | .node .. => none

/-- The tree at an address inside of a tree. -/
def at? : Tree → Address → Option Tree
  | tree, [] => some tree
  | tree, index :: rest => tree.parts[index]?.bind fun part => part.at? rest

end TypeScript.Tree

/-- The call at an address inside of a tree. -/
def callAt? (tree : Tree) (address : Address) : Option CallSite := (tree.at? address).bind Tree.call?

/-- The call at an address inside of one of several trees. -/
def callBelow? (trees : List Tree) : Address → Option CallSite
  | [] => none
  | index :: rest => trees[index]?.bind fun tree => callAt? tree rest

private theorem callAt?_cons (tree : Tree) (index : Nat) (rest : Address) :
    callAt? tree (index :: rest) = callBelow? tree.parts (index :: rest) := by
  simp only [callAt?, callBelow?, Tree.at?]
  cases tree.parts[index]? <;> rfl

/-! ## The list of calls by parts -/

private theorem callsOfAll_eq_flatMap (trees : List Tree) : callsOfAll trees = trees.flatMap callsOf := by
  induction trees with
  | nil => rfl
  | cons tree trees ih => rw [callsOfAll, ih, List.flatMap_cons]

/-- The calls of a tree: the tree itself if it is one, then those of its parts. -/
theorem callsOf_eq (tree : Tree) : callsOf tree = tree.call?.toList ++ callsOfAll tree.parts := by
  cases tree with
  | call span chained callee arguments types =>
    rw [callsOf, Tree.parts, callsOfAll_eq_flatMap, callsOfAll_eq_flatMap, callsOfAll_eq_flatMap,
      List.flatMap_cons, List.flatMap_append, List.append_assoc]
    rfl
  | node form span parts =>
    rw [callsOf]
    rfl

/-! ## Addresses in order -/

/-- `addresses` are all the places at which `callAt?` finds a call, each listed once and in order, and
`calls` are the calls found there. -/
structure ListsCalls (callAt? : Address → Option CallSite) (addresses : List Address)
    (calls : List CallSite) : Prop where
  increasing : addresses.Pairwise (· < ·)
  complete : ∀ address, address ∈ addresses ↔ (callAt? address).isSome = true
  found : addresses.map callAt? = calls.map some

namespace ListsCalls

variable {tree : Tree} {trees : List Tree} {addresses others : List Address}

/-- Several trees are no call themselves. -/
theorem nil_not_mem {calls : List CallSite} (listed : ListsCalls (callBelow? trees) addresses calls) :
    [] ∉ addresses := by
  intro member
  cases (listed.complete []).mp member

/-- The places in a tree are the tree itself, if it is a call, and the places in its parts. -/
theorem ofParts (inParts : ListsCalls (callBelow? tree.parts) addresses (callsOfAll tree.parts)) :
    ∃ addresses, ListsCalls (callAt? tree) addresses (callsOf tree) := by
  have same : ∀ address ∈ addresses, callAt? tree address = callBelow? tree.parts address := by
    intro address member
    cases address with
    | nil => exact absurd member inParts.nil_not_mem
    | cons index rest => exact callAt?_cons tree index rest
  have atTop : callAt? tree [] = tree.call? := rfl
  refine ⟨tree.call?.toList.map (fun _ => []) ++ addresses, ?_, ?_, ?_⟩
  · rw [List.pairwise_append]
    refine ⟨by cases tree.call? <;> simp, inParts.increasing, ?_⟩
    intro top member address below
    obtain ⟨_, _, rfl⟩ := List.mem_map.mp member
    cases address with
    | nil => exact absurd below inParts.nil_not_mem
    | cons index rest => exact List.nil_lt_cons index rest
  · intro address
    rw [List.mem_append]
    cases address with
    | nil =>
      rw [atTop]
      constructor
      · rintro (top | below)
        · obtain ⟨call, member, _⟩ := List.mem_map.mp top
          rw [Option.mem_toList] at member
          rw [member]
          rfl
        · exact absurd below inParts.nil_not_mem
      · intro isCall
        obtain ⟨call, found⟩ := Option.isSome_iff_exists.mp isCall
        exact .inl (List.mem_map.mpr ⟨call, by rw [found]; simp, rfl⟩)
    | cons index rest =>
      have outside : (index :: rest) ∉ tree.call?.toList.map (fun _ => ([] : Address)) := by
        intro member
        obtain ⟨_, _, impossible⟩ := List.mem_map.mp member
        cases impossible
      rw [or_iff_right outside, inParts.complete, callAt?_cons]
  · rw [callsOf_eq, List.map_append, List.map_append, ← inParts.found, List.map_congr_left same]
    congr 1
    cases isCall : tree.call? with
    | none => rfl
    | some call => simp [atTop, isCall]

/-- The same address, one tree further on. -/
def shift : Address → Address
  | [] => []
  | index :: rest => (index + 1) :: rest

private theorem shift_lt_shift {a b : Address} (before : a < b) : shift a < shift b := by
  cases a with
  | nil =>
    cases b with
    | nil => exact before
    | cons index rest => exact List.nil_lt_cons _ _
  | cons index rest =>
    cases b with
    | nil => exact absurd before (List.not_lt_nil _)
    | cons index' rest' =>
      rw [List.cons_lt_cons_iff] at before
      rw [shift, shift, List.cons_lt_cons_iff]
      exact before.imp (fun less => Nat.add_lt_add_right less 1) (fun tie => ⟨by rw [tie.1], tie.2⟩)

/-- The places in a list of trees are those in the first tree, then those in the others. -/
theorem cons (inFirst : ListsCalls (callAt? tree) addresses (callsOf tree))
    (inOthers : ListsCalls (callBelow? trees) others (callsOfAll trees)) :
    ListsCalls (callBelow? (tree :: trees)) (addresses.map (0 :: ·) ++ others.map shift)
      (callsOfAll (tree :: trees)) := by
  refine ⟨?_, ?_, ?_⟩
  · rw [List.pairwise_append, List.pairwise_map, List.pairwise_map]
    refine ⟨inFirst.increasing.imp fun less => ?_, inOthers.increasing.imp shift_lt_shift, ?_⟩
    · rw [List.cons_lt_cons_iff]
      exact .inr ⟨rfl, less⟩
    · intro a first b other
      obtain ⟨_, _, rfl⟩ := List.mem_map.mp first
      obtain ⟨address, member, rfl⟩ := List.mem_map.mp other
      cases address with
      | nil => exact absurd member inOthers.nil_not_mem
      | cons index rest =>
        rw [shift, List.cons_lt_cons_iff]
        exact .inl (Nat.succ_pos index)
  · intro address
    rw [List.mem_append]
    cases address with
    | nil =>
      constructor
      · rintro (first | other)
        · obtain ⟨_, _, impossible⟩ := List.mem_map.mp first
          cases impossible
        · obtain ⟨address, member, equal⟩ := List.mem_map.mp other
          cases address with
          | nil => exact absurd member inOthers.nil_not_mem
          | cons index rest => cases equal
      · exact nofun
    | cons index rest =>
      cases index with
      | zero =>
        have apart : (0 :: rest) ∉ others.map shift := by
          intro other
          obtain ⟨address, _, equal⟩ := List.mem_map.mp other
          cases address <;> cases equal
        have kept : (0 :: rest) ∈ addresses.map (0 :: ·) ↔ rest ∈ addresses := by
          constructor
          · intro first
            obtain ⟨address, member, equal⟩ := List.mem_map.mp first
            cases equal
            exact member
          · exact fun member => List.mem_map.mpr ⟨_, member, rfl⟩
        rw [or_iff_left apart, kept, inFirst.complete]
        rfl
      | succ index =>
        have apart : ((index + 1) :: rest) ∉ addresses.map (0 :: ·) := by
          intro first
          obtain ⟨_, _, equal⟩ := List.mem_map.mp first
          cases equal
        have moved : ((index + 1) :: rest) ∈ others.map shift ↔ (index :: rest) ∈ others := by
          constructor
          · intro other
            obtain ⟨address, member, equal⟩ := List.mem_map.mp other
            cases address <;> cases equal
            exact member
          · exact fun member => List.mem_map.mpr ⟨_, member, rfl⟩
        rw [or_iff_right apart, moved, inOthers.complete]
        rfl
  · have moved : ∀ address ∈ others, callBelow? (tree :: trees) (shift address) =
        callBelow? trees address := by
      intro address member
      cases address with
      | nil => exact absurd member inOthers.nil_not_mem
      | cons index rest => rfl
    rw [callsOfAll, List.map_append, List.map_append, ← inFirst.found, ← inOthers.found, List.map_map,
      List.map_map]
    exact congrArg (_ ++ ·) (List.map_congr_left moved)

end ListsCalls

/-- The calls of several trees stand in the order of their addresses, if those of each tree do. -/
theorem exists_listsCalls_of_forall (trees : List Tree)
    (each : ∀ tree ∈ trees, ∃ addresses, ListsCalls (callAt? tree) addresses (callsOf tree)) :
    ∃ addresses, ListsCalls (callBelow? trees) addresses (callsOfAll trees) := by
  induction trees with
  | nil =>
    refine ⟨[], .nil, fun address => ⟨nofun, ?_⟩, rfl⟩
    cases address <;> exact nofun
  | cons tree trees ih =>
    obtain ⟨⟨addresses, inFirst⟩, rest⟩ := List.forall_mem_cons.mp each
    obtain ⟨others, inOthers⟩ := ih rest
    exact ⟨_, inFirst.cons inOthers⟩

/-- The calls of a tree stand in the order of their addresses, whatever is nested in what. -/
theorem exists_listsCalls (tree : Tree) :
    ∃ addresses, ListsCalls (callAt? tree) addresses (callsOf tree) := by
  induction tree using Tree.induction with
  | step tree ih =>
    obtain ⟨addresses, inParts⟩ := exists_listsCalls_of_forall tree.parts ih
    exact inParts.ofParts

/-- The calls of a file stand in the order of their addresses. -/
theorem SourceFile.exists_listsCalls_calls (file : SourceFile) :
    ∃ addresses, ListsCalls (callBelow? file.parsed.items) addresses file.calls :=
  exists_listsCalls_of_forall file.parsed.items fun tree _ => exists_listsCalls tree

/-- An address does not come before one that it continues. -/
theorem not_prefix_of_lt {a b : Address} (before : a < b) : ¬ b <+: a := by
  rintro ⟨rest, rfl⟩
  induction b with
  | nil => exact List.not_lt_nil _ before
  | cons index b ih =>
    rw [List.cons_append, List.cons_lt_cons_iff] at before
    exact before.elim (Nat.lt_irrefl index) fun tie => ih tie.2

end Harvest
