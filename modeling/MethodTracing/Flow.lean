import MethodTracing.Instruction.Listing

/-!
# Control flow

The basic blocks of a body and the ways control passes between them.  A block starts at the first
instruction, at every label, and after every instruction that ends a block or branches.
-/

namespace MethodTracing

/-- Why a body has no control flow graph. -/
inductive FlowError
  /-- A label is marked at two places. -/
  | duplicateLabel (label : Label)
  /-- A branch names a label that is marked nowhere. -/
  | undefinedLabel (index : Nat) (label : Label)
  deriving DecidableEq

/-- The wording of each cause. -/
def FlowError.message : FlowError → String
  | .duplicateLabel label => "label " ++ label.text ++ " is defined more than once"
  | .undefinedLabel index label =>
      "instruction " ++ Text.decimal index ++ " jumps to undefined label " ++ label.text

/-- A maximal straight run of instructions. -/
structure Block where
  /-- Index of the first instruction. -/
  start : Nat
  /-- One past the index of the last instruction. -/
  stop : Nat
  /-- Blocks that control passes to: the branch target first, then the next block. -/
  successors : List Nat
  deriving DecidableEq

/-- Index of the last instruction of a block. -/
def Block.terminator (block : Block) : Nat :=
  block.stop - 1

/-- A body divided into its blocks. -/
structure FlowGraph where
  /-- The body. -/
  code : List Instruction
  /-- Its blocks in ascending order. -/
  blocks : List Block
  deriving DecidableEq

namespace Flow

/-- Index of the first place that marks a label. -/
def labelPosition? (code : List Instruction) (label : Label) : Option Nat :=
  code.findIdx? fun instruction => instruction.marked? == some label

/-- The first label that was marked before, where the labels of `seen` were. -/
def repeatedLabel? (seen : List Label) : List Instruction → Option Label
  | [] => none
  | instruction :: rest =>
      match instruction.marked? with
      | none => repeatedLabel? seen rest
      | some label => if label ∈ seen then some label else repeatedLabel? (label :: seen) rest

/-- The first branch to a label that `code` does not mark, in a part that begins at `index`. -/
def danglingBranch? (code : List Instruction) (index : Nat) :
    List Instruction → Option (Nat × Label)
  | [] => none
  | instruction :: rest =>
      match instruction.branchTarget? with
      | none => danglingBranch? code (index + 1) rest
      | some label =>
          if (labelPosition? code label).isSome then danglingBranch? code (index + 1) rest
          else some (index, label)

/-- First indices of blocks in a part that begins at `index`; `fresh` tells whether a block starts
there in any case. -/
def leadersFrom (index : Nat) (fresh : Bool) : List Instruction → List Nat
  | [] => []
  | instruction :: rest =>
      let later := leadersFrom (index + 1) (instruction.endsBlock || instruction.isConditional) rest
      if fresh || instruction.marked?.isSome then index :: later else later

/-- First indices of the blocks of a body. -/
def leaders (code : List Instruction) : List Nat :=
  leadersFrom 0 true code

/-- The ranges that begin at ascending indices, the last of which ends at `size`. -/
def ranges (size : Nat) : List Nat → List (Nat × Nat)
  | [] => []
  | [start] => [(start, size)]
  | start :: next :: rest => (start, next) :: ranges size (next :: rest)

/-- The block that holds an index. -/
def blockAt (starts : List Nat) (index : Nat) : Nat :=
  (starts.takeWhile (· ≤ index)).length - 1

/-- Blocks that control passes to from the end of block `id`. -/
def successors (code : List Instruction) (starts : List Nat) (id : Nat) (last : Instruction) :
    List Nat :=
  let jump := ((last.branchTarget?.bind (labelPosition? code)).map (blockAt starts)).toList
  if !last.endsBlock && id + 1 < starts.length && !jump.contains (id + 1) then jump ++ [id + 1]
  else jump

/-- The blocks of a body, from the ranges of those that begin with block `id`. -/
def blocksFrom (code : List Instruction) (starts : List Nat) (id : Nat) :
    List (Nat × Nat) → List Block
  | [] => []
  | (start, stop) :: rest =>
      { start, stop
        successors :=
          match code[stop - 1]? with
          | none => []
          | some last => successors code starts id last } :: blocksFrom code starts (id + 1) rest

end Flow

namespace FlowGraph

/-- The control flow graph of a body.  A label marked twice anywhere is found before a branch to
an unmarked one. -/
def build (code : List Instruction) : Except FlowError FlowGraph :=
  match Flow.repeatedLabel? [] code with
  | some label => .error (.duplicateLabel label)
  | none =>
      match Flow.danglingBranch? code 0 code with
      | some (index, label) => .error (.undefinedLabel index label)
      | none =>
          let starts := Flow.leaders code
          .ok ⟨code, Flow.blocksFrom code starts 0 (Flow.ranges code.length starts)⟩

/-- The instructions of a block. -/
def blockCode (graph : FlowGraph) (block : Block) : List Instruction :=
  (graph.code.drop block.start).take (block.stop - block.start)

/-- Whether the last instruction of a block satisfies a test. -/
def endsWith (graph : FlowGraph) (test : Instruction → Bool) (block : Block) : Bool :=
  (graph.code[block.terminator]?).any test

/-- Blocks that end a method normally. -/
def exitBlocks (graph : FlowGraph) : List Block :=
  graph.blocks.filter (graph.endsWith Instruction.isReturn)

/-- Indices of the instructions that end a method normally. -/
def exitSites (graph : FlowGraph) : List Nat :=
  graph.exitBlocks.map Block.terminator

/-- Whether control can run past the last instruction. -/
def fallsOffEnd (graph : FlowGraph) : Bool :=
  graph.blocks.getLast?.any (graph.endsWith fun last => !last.endsBlock)

end FlowGraph
end MethodTracing
