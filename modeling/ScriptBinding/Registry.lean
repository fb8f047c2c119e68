import ScriptBinding.Structure.Basic

/-! # Descriptors of structures

A header is matched against the patterns of descriptors. Those of preloading structures come first,
in the order that they give and otherwise as they were registered; then the others, as they were
registered.
-/

namespace ScriptBinding

/-- A descriptor of structures. -/
structure Descriptor extends StructureInfo where
  /-- A new structure that has the given ticket. -/
  create : Nat → Structure

/-- The first of some patterns that matches a header, the first of which has the given place. -/
def Pattern.firstMatch? (header : String) (place : Nat) : List Pattern → Option MatchResult
  | [] => none
  | pattern :: others =>
    match pattern.match? header with
    | some result => some { result with pattern := place }
    | none => firstMatch? header (place + 1) others

/-- Compile patterns, up to the first that is none. -/
def Pattern.compileAll : List String → Except PatternError (List Pattern)
  | [] => .ok []
  | source :: others =>
    match Pattern.compile source with
    | .error error => .error error
    | .ok pattern => (compileAll others).map (pattern :: ·)

/-- What a descriptor finds in a header. -/
def Descriptor.match? (descriptor : Descriptor) (header : String) : Option MatchResult :=
  Pattern.firstMatch? header 0 descriptor.patterns

/-- The first of some descriptors that matches a header. -/
def Descriptor.first? (header : String) : List Descriptor → Option (Descriptor × MatchResult)
  | [] => none
  | descriptor :: others =>
    match descriptor.match? header with
    | some result => some (descriptor, result)
    | none => first? header others

/-- The descriptors that sections are matched against. -/
structure Registry where
  preloading : List Descriptor := []
  normal : List Descriptor := []

namespace Registry

/-- Every descriptor, in the order in which a header is matched against them. -/
def all (registry : Registry) : List Descriptor :=
  registry.preloading ++ registry.normal

/-- A descriptor with this id is registered. -/
def contains (registry : Registry) (id : String) : Bool :=
  registry.all.any (·.id == id)

/-- Put a preloading descriptor behind those whose order is not higher. -/
def insertByOrder (order : Int) (descriptor : Descriptor) (descriptors : List Descriptor) :
    List Descriptor :=
  let stays (other : Descriptor) : Bool := (other.order.getD order) ≤ order
  descriptors.takeWhile stays ++ descriptor :: descriptors.dropWhile stays

/-- Add a descriptor where it belongs. -/
def add (descriptor : Descriptor) (registry : Registry) : Registry :=
  match descriptor.order with
  | some order =>
    { registry with preloading := insertByOrder order descriptor registry.preloading }
  | none => { registry with normal := registry.normal ++ [descriptor] }

/-- Register structures under an id, unless it is taken. With an order they are preloading. -/
def register (id : String) (order : Option Int) (create : Nat → Structure)
    (patterns : List String) (registry : Registry) : Except PatternError Registry :=
  if registry.contains id then .ok registry
  else
    match Pattern.compileAll patterns with
    | .error error => .error error
    | .ok patterns => .ok (registry.add { id, order, patterns, event := none, create })

/-- The id under which an event is registered. -/
def eventId (name : String) : String :=
  "event:" ++ Text.lower name

/-- The pattern of the sections of an event, given that of the event itself. -/
def eventPattern (source : String) : String :=
  "[on] " ++ source ++ "[ with priority <.+>]"

/-- Register an event with the classes it belongs to, unless its name is taken. -/
def registerEvent (name : String) (classes : List String) (filter : EventFilter)
    (patterns : List String) (registry : Registry) : Except PatternError Registry :=
  let id := eventId name
  if registry.contains id then .ok registry
  else
    match Pattern.compileAll (patterns.map eventPattern) with
    | .error error => .error error
    | .ok patterns =>
      .ok (registry.add
        { id
          order := none
          patterns
          event := some ⟨name, classes.map EventClass.of⟩
          create := fun ticket => .event { ticket, unused := some filter } })

/-- The first descriptor that matches a header. -/
def match? (registry : Registry) (header : String) : Option (Descriptor × MatchResult) :=
  Descriptor.first? header registry.all

end Registry

end ScriptBinding
