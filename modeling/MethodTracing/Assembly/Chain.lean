import MethodTracing.Assembly.Writer
import MethodTracing.Weaving

/-!
# Chains of layers

Classes are built through a chain: layers in front of a writer, the outermost first.  A relay passes
everything on.  A tracing layer looks at each declaration; a method that it selects is passed on
as woven, its body being held back until it is finished.
-/

namespace MethodTracing

/-- Counts kept by a tracing layer. -/
structure Report where
  /-- Declarations looked at. -/
  inspected : Nat
  /-- Methods selected. -/
  selected : Nat
  /-- Exit sequences inserted. -/
  exitSites : Nat
  deriving DecidableEq

namespace Report

/-- Nothing counted. -/
def zero : Report := ⟨0, 0, 0⟩

/-- The counts of two reports together. -/
def merge (left right : Report) : Report :=
  ⟨left.inspected + right.inspected, left.selected + right.selected,
    left.exitSites + right.exitSites⟩

end Report

namespace Assembly

/-- One step in the construction of a body. -/
inductive BodyEvent
  /-- The body begins. -/
  | code
  /-- The next instructions. -/
  | instructions (run : List Instruction)
  /-- The limits of the frame. -/
  | limits (maxStack maxLocals : UInt16)
  /-- The body is complete. -/
  | finish
  deriving DecidableEq

/-- The events that construct the body of a method. -/
def BodyEvent.ofMethod (method : Method) : List BodyEvent :=
  [.code, .instructions method.instructions, .limits method.maxStack method.maxLocals, .finish]

/-- A member of a chain in front of the writer. -/
inductive Layer
  /-- Weaves the methods that its settings select. -/
  | tracing (settings : Settings) (report : Report)
  /-- Passes everything on. -/
  | relay
  deriving DecidableEq

namespace Layer

/-- A tracing layer; its settings must be valid. -/
def ofSettings (settings : Settings) : Except SettingsError Layer :=
  match settings.validate with
  | .error cause => .error cause
  | .ok () => .ok (.tracing settings .zero)

/-- Look at a declaration: the layer with its counts raised, and the marked declaration if the
layer will weave the method. -/
def inspect (declaration : Declaration) : Layer → Layer × Option Declaration
  | relay => (relay, none)
  | tracing settings report =>
      if settings.selects declaration then
        (tracing settings (report.merge ⟨1, 1, 0⟩), some declaration.tagTraced)
      else (tracing settings (report.merge ⟨1, 0, 0⟩), none)

/-- Count inserted exit sequences. -/
def countExits (exitSites : Nat) : Layer → Layer
  | tracing settings report => tracing settings (report.merge ⟨0, 0, exitSites⟩)
  | relay => relay

end Layer

/-- A layer while a body is constructed. -/
structure Station where
  /-- The layer. -/
  layer : Layer
  /-- What the layer holds back of a method that it will weave. -/
  draft : Option Method

/-- A body under construction. -/
structure Construction where
  /-- The layers, the outermost first. -/
  stations : List Station
  /-- What has reached the writer of the method. -/
  arriving : Method
  /-- Methods completed so far. -/
  completed : List Method
  /-- The outcome of each completion so far. -/
  outcomes : List (Except WeaveError Unit)

/-- A method without instructions and with an empty frame. -/
def blank (declaration : Declaration) : Method :=
  ⟨declaration, [], 0, 0⟩

/-- Append a woven body to a draft and take over its limits. -/
def replay (woven draft : Method) : Method :=
  { draft with
    instructions := draft.instructions ++ woven.instructions
    maxStack := woven.maxStack
    maxLocals := woven.maxLocals }

/-- Show a declaration to the layers, the outermost first; each layer sees it as marked by those
before it. -/
def admitted (declaration : Declaration) : List Layer → List Station × Method
  | [] => ([], blank declaration)
  | layer :: rest =>
      match layer.inspect declaration with
      | (layer, none) =>
          let (stations, arriving) := admitted declaration rest
          (⟨layer, none⟩ :: stations, arriving)
      | (layer, some marked) =>
          let (stations, arriving) := admitted marked rest
          (⟨layer, some (blank marked)⟩ :: stations, arriving)

/-- Change the first draft that is held back, or else what reaches the writer. -/
def change (edit : Method → Method) : List Station → Method → List Station × Method
  | [], arriving => ([], edit arriving)
  | station :: rest, arriving =>
      match station.draft with
      | some draft => (⟨station.layer, some (edit draft)⟩ :: rest, arriving)
      | none =>
          let (stations, arriving) := change edit rest arriving
          (station :: stations, arriving)

/-- What completing a body leaves behind. -/
structure Completion where
  /-- The layers. -/
  stations : List Station
  /-- What has reached the writer of the next method. -/
  arriving : Method
  /-- The completed method, or why there is none. -/
  outcome : Except WeaveError Method

/-- Complete a body: the first draft held back, changed by `edit`, is woven and replayed into the
rest of the chain.  A draft that fails stays where it is; one that succeeds is emptied of its
instructions but keeps its limits. -/
def complete (edit : Method → Method) : List Station → Method → Completion
  | [], arriving =>
      let method := edit arriving
      ⟨[], blank method.declaration, .ok method⟩
  | station :: rest, arriving =>
      match station.draft with
      | none =>
          let completion := complete edit rest arriving
          { completion with stations := station :: completion.stations }
      | some draft =>
          match (edit draft).instrument with
          | ⟨after, .error cause⟩ =>
              ⟨⟨station.layer, some after⟩ :: rest, arriving, .error cause⟩
          | ⟨after, .ok weave⟩ =>
              let completion := complete (replay after) rest arriving
              { completion with
                stations :=
                  ⟨station.layer.countExits weave.exitSites,
                    some { after with instructions := [] }⟩ :: completion.stations }

namespace Construction

/-- Begin the construction of a method. -/
def start (declaration : Declaration) (layers : List Layer) : Construction :=
  let (stations, arriving) := admitted declaration layers
  ⟨stations, arriving, [], []⟩

/-- Change the body under construction. -/
def edit (change : Method → Method) (construction : Construction) : Construction :=
  let (stations, arriving) := Assembly.change change construction.stations construction.arriving
  { construction with stations, arriving }

/-- Take one event. -/
def take (construction : Construction) : BodyEvent → Construction
  | .code => construction
  | .instructions run =>
      construction.edit fun draft => { draft with instructions := draft.instructions ++ run }
  | .limits maxStack maxLocals =>
      construction.edit fun draft => { draft with maxStack, maxLocals }
  | .finish =>
      match complete id construction.stations construction.arriving with
      | ⟨stations, arriving, .ok method⟩ =>
          ⟨stations, arriving, construction.completed ++ [method],
            construction.outcomes ++ [.ok ()]⟩
      | ⟨stations, arriving, .error cause⟩ =>
          ⟨stations, arriving, construction.completed, construction.outcomes ++ [.error cause]⟩

end Construction

/-- Layers in front of a writer. -/
structure Chain where
  /-- The layers, the outermost first. -/
  layers : List Layer
  /-- The writer behind them. -/
  writer : Writer
  deriving DecidableEq

namespace Chain

/-- A chain of layers over an empty writer. -/
def ofLayers (layers : List Layer) : Chain := ⟨layers, .empty⟩

/-- Open a class. -/
def define (chain : Chain) (name : String) : Chain :=
  { chain with writer := chain.writer.define name }

/-- Close the open class. -/
def close (chain : Chain) : Chain :=
  { chain with writer := chain.writer.close }

/-- Construct a method; the answer holds the outcome of each completion of its body. -/
def method (chain : Chain) (declaration : Declaration) (events : List BodyEvent) :
    Chain × List (Except WeaveError Unit) :=
  let construction := events.foldl Construction.take (.start declaration chain.layers)
  (⟨construction.stations.map Station.layer, chain.writer.store construction.completed⟩,
    construction.outcomes)

/-- The first failure among outcomes. -/
def failure? : List (Except WeaveError Unit) → Option WeaveError
  | [] => none
  | .error cause :: _ => some cause
  | .ok () :: rest => failure? rest

/-- Construct methods one after another, then close the class; the first failure ends it. -/
def acceptMethods (chain : Chain) : List Method → Chain × Except WeaveError Unit
  | [] => (chain.close, .ok ())
  | method :: rest =>
      match chain.method method.declaration (BodyEvent.ofMethod method) with
      | (chain, outcomes) =>
          match failure? outcomes with
          | some cause => (chain, .error cause)
          | none => chain.acceptMethods rest

/-- Build a class through the chain, its methods in declaration order. -/
def accept (chain : Chain) (file : ClassFile) : Chain × Except WeaveError Unit :=
  (chain.define file.name).acceptMethods file.methods

/-- The counts of all tracing layers together. -/
def report (chain : Chain) : Report :=
  chain.layers.foldl (fun total layer =>
    match layer with
    | .tracing _ report => total.merge report
    | .relay => total) .zero

end Chain
end Assembly
end MethodTracing
