import ScriptBinding.Proofs.Headers

/-! # The standard structures

Whatever the patterns are that they are registered with: the structures that every host has hold on
to the host by their own tickets only, their filters are built in, and an event belongs to no class
twice.
-/

namespace ScriptBinding

/-- A filter that is not from outside. -/
def EventFilter.IsBuiltIn : EventFilter → Prop
  | custom _ _ => False
  | _ => True

namespace EventFilter.IsBuiltIn

variable {filter : EventFilter}

theorem loads (builtIn : filter.IsBuiltIn) : filter.loads = true := by
  cases filter with
  | custom behaviour header => exact builtIn.elim
  | _ => rfl

theorem classes?_eq_none (builtIn : filter.IsBuiltIn) : filter.classes? = none := by
  cases filter with
  | custom behaviour header => exact builtIn.elim
  | _ => rfl

theorem start (builtIn : filter.IsBuiltIn) (header : MatchResult) :
    (filter.start header).2.1.IsBuiltIn := by
  cases filter with
  | custom behaviour header => exact builtIn.elim
  | _ => trivial

end EventFilter.IsBuiltIn

/-- A descriptor of structures that are built in. -/
structure Descriptor.BuiltIn (descriptor : Descriptor) : Prop where
  makes : descriptor.MakesOwn EventFilter.IsBuiltIn
  classes : ∀ info ∈ descriptor.event, info.classes.Nodup

/-- Structures that are no events have no filter. -/
theorem Descriptor.MakesOwn.of_no_event {Possible : EventFilter → Prop} {descriptor : Descriptor}
    (ticket : ∀ ticket, ∀ own ∈ (descriptor.create ticket).ticket?, own = ticket)
    (declares : ∀ ticket script, (descriptor.create ticket).DeclaresIn script)
    (noEvent : ∀ ticket, (descriptor.create ticket).event? = none) :
    descriptor.MakesOwn Possible := by
  refine ⟨ticket, declares, fun ticket event isEvent => ?_⟩
  rw [noEvent] at isEvent
  exact absurd isEvent (Option.not_mem_none _)

/-- Structures without tickets hold on to nothing. -/
theorem Descriptor.MakesOwn.of_no_ticket {Possible : EventFilter → Prop} {descriptor : Descriptor}
    (declares : ∀ ticket script, (descriptor.create ticket).DeclaresIn script)
    (noTicket : ∀ ticket, (descriptor.create ticket).ticket? = none)
    (noEvent : ∀ ticket, (descriptor.create ticket).event? = none) :
    descriptor.MakesOwn Possible := by
  refine .of_no_event (fun ticket own found => ?_) declares noEvent
  rw [noTicket] at found
  exact absurd found (Option.not_mem_none _)

namespace Registry

/-- A registry of structures that are built in. -/
def BuiltIn (registry : Registry) : Prop :=
  ∀ descriptor ∈ registry.all, descriptor.BuiltIn

theorem BuiltIn.makesOwn {registry : Registry} (builtIn : registry.BuiltIn) :
    registry.MakesOwn EventFilter.IsBuiltIn :=
  fun descriptor member => (builtIn descriptor member).makes

/-- An event that a registry of built-in structures knows belongs to no class twice. -/
theorem BuiltIn.eventInfo_classes {registry : Registry} (builtIn : registry.BuiltIn) {key : String}
    {info : EventInfo} (found : registry.eventInfo? key = some info) : info.classes.Nodup := by
  obtain ⟨⟨descriptor, header⟩, matched, isEvent⟩ := Option.bind_eq_some_iff.mp found
  exact (builtIn descriptor (Loading.first?_mem matched)).classes info isEvent

/-- Adding a descriptor leaves the others as they are. -/
theorem mem_add {registry : Registry} {descriptor other : Descriptor}
    (member : other ∈ (registry.add descriptor).all) :
    other = descriptor ∨ other ∈ registry.all := by
  unfold add at member
  split at member
  · next order _ =>
    rcases List.mem_append.mp member with early | late
    · rcases List.mem_append.mp early with first | later
      · exact Or.inr (List.mem_append_left _ ((List.takeWhile_sublist _).subset first))
      · rcases List.mem_cons.mp later with rfl | last
        · exact Or.inl rfl
        · exact Or.inr (List.mem_append_left _ ((List.dropWhile_sublist _).subset last))
    · exact Or.inr (List.mem_append_right _ late)
  · rcases List.mem_append.mp member with early | late
    · exact Or.inr (List.mem_append_left _ early)
    · rcases List.mem_append.mp late with old | new
      · exact Or.inr (List.mem_append_right _ old)
      · exact Or.inl (List.mem_singleton.mp new)

/-- Registering structures adds descriptors of no event that make them. -/
theorem mem_register {registry after : Registry} {id : String} {order : Option Int}
    {create : Nat → Structure} {patterns : List String} {descriptor : Descriptor}
    (registers : registry.register id order create patterns = .ok after)
    (member : descriptor ∈ after.all) :
    (descriptor.create = create ∧ descriptor.event = none) ∨ descriptor ∈ registry.all := by
  unfold Registry.register at registers
  split at registers
  · cases Except.ok.inj registers
    exact Or.inr member
  · split at registers
    · cases registers
    · cases Except.ok.inj registers
      refine (mem_add member).imp_left ?_
      rintro rfl
      exact ⟨rfl, rfl⟩

/-- Registering an event adds descriptors of it. -/
theorem mem_registerEvent {registry after : Registry} {name : String} {classes : List String}
    {filter : EventFilter} {patterns : List String} {descriptor : Descriptor}
    (registers : registry.registerEvent name classes filter patterns = .ok after)
    (member : descriptor ∈ after.all) :
    (descriptor.create = (fun ticket => .event { ticket, unused := some filter }) ∧
        descriptor.event = some ⟨name, classes.map EventClass.of⟩) ∨
      descriptor ∈ registry.all := by
  unfold Registry.registerEvent at registers
  dsimp only at registers
  split at registers
  · cases Except.ok.inj registers
    exact Or.inr member
  · split at registers
    · cases registers
    · cases Except.ok.inj registers
      refine (mem_add member).imp_left ?_
      rintro rfl
      exact ⟨rfl, rfl⟩

/-- A step after another one succeeds only if both do. -/
theorem bind_eq_ok {α β ε : Type} {first : Except ε α} {next : α → Except ε β} {result : β} :
    (first >>= next) = .ok result ↔ ∃ value, first = .ok value ∧ next value = .ok result := by
  cases first with
  | error failure => exact ⟨nofun, nofun⟩
  | ok value => exact ⟨fun same => ⟨value, rfl, same⟩, fun ⟨_, rfl, same⟩ => same⟩

end Registry

/-! ## What is registered -/

/-- The descriptors of the structures that every host has. -/
inductive Descriptor.Standard : Descriptor → Prop
  | options (info : StructureInfo) (noEvent : info.event = none) :
      Standard ⟨info, fun _ => .options {}⟩
  | function (info : StructureInfo) (noEvent : info.event = none) :
      Standard ⟨info, fun _ => .function {}⟩
  | aliases (info : StructureInfo) (noEvent : info.event = none) :
      Standard ⟨info, fun _ => .aliases⟩
  | defaults (info : StructureInfo) (noEvent : info.event = none) :
      Standard ⟨info, fun _ => .defaults {}⟩
  | command (info : StructureInfo) (noEvent : info.event = none) :
      Standard ⟨info, fun ticket => .command { ticket }⟩
  | event (info : StructureInfo) (filter : EventFilter) (builtIn : filter.IsBuiltIn)
      (name eventClass : String) (isEvent : info.event = some ⟨name, [.of eventClass]⟩) :
      Standard ⟨info, fun ticket => .event { ticket, unused := some filter }⟩

namespace Registry

theorem registerStructures_standard {after : Registry}
    (registers : registerStructures {} = .ok after) :
    ∀ descriptor ∈ after.all, descriptor.Standard := by
  simp only [registerStructures, bind_eq_ok] at registers
  obtain ⟨withOptions, options, withFunctions, functions, withAliases, aliases, withDefaults,
    defaults, commands⟩ := registers
  rintro ⟨info, create⟩ member
  rcases mem_register commands member with ⟨rfl, noEvent⟩ | member
  · exact .command info noEvent
  rcases mem_register defaults member with ⟨rfl, noEvent⟩ | member
  · exact .defaults info noEvent
  rcases mem_register aliases member with ⟨rfl, noEvent⟩ | member
  · exact .aliases info noEvent
  rcases mem_register functions member with ⟨rfl, noEvent⟩ | member
  · exact .function info noEvent
  rcases mem_register options member with ⟨rfl, noEvent⟩ | member
  · exact .options info noEvent
  exact absurd member List.not_mem_nil

theorem registerEvents_standard {registry after : Registry}
    (before : ∀ descriptor ∈ registry.all, descriptor.Standard)
    (registers : registry.registerEvents = .ok after) :
    ∀ descriptor ∈ after.all, descriptor.Standard := by
  simp only [registerEvents, bind_eq_ok] at registers
  obtain ⟨withChat, chat, withJoin, join, withClick, click, loads⟩ := registers
  rintro ⟨info, create⟩ member
  rcases mem_registerEvent loads member with ⟨rfl, isEvent⟩ | member
  · exact .event info _ trivial _ _ isEvent
  rcases mem_registerEvent click member with ⟨rfl, isEvent⟩ | member
  · exact .event info _ trivial _ _ isEvent
  rcases mem_registerEvent join member with ⟨rfl, isEvent⟩ | member
  · exact .event info _ trivial _ _ isEvent
  rcases mem_registerEvent chat member with ⟨rfl, isEvent⟩ | member
  · exact .event info _ trivial _ _ isEvent
  exact before _ member

/-- Nothing else is registered in the standard registry. -/
theorem mem_standard {descriptor : Descriptor} (member : descriptor ∈ standard.all) :
    descriptor.Standard := by
  have registered (registry : Registry) (found : standard? = .ok registry) :
      ∀ descriptor ∈ registry.all, descriptor.Standard := by
    obtain ⟨structures, first, second⟩ := bind_eq_ok.mp found
    exact registerEvents_standard (registerStructures_standard first) second
  unfold standard at member
  generalize standard? = result at registered member
  cases result with
  | error failure => exact absurd member List.not_mem_nil
  | ok registry => exact registered registry rfl descriptor member

end Registry

theorem Descriptor.Standard.builtIn {descriptor : Descriptor} (standard : descriptor.Standard) :
    descriptor.BuiltIn := by
  have none {info : StructureInfo} {create : Nat → Structure} (noEvent : info.event = none)
      (makes : (Descriptor.mk info create).MakesOwn EventFilter.IsBuiltIn) :
      (Descriptor.mk info create).BuiltIn := by
    refine ⟨makes, fun _ isEvent => ?_⟩
    rw [noEvent] at isEvent
    exact absurd isEvent (Option.not_mem_none _)
  cases standard with
  | options info noEvent =>
    exact none noEvent (.of_no_ticket (fun _ _ => trivial) (fun _ => rfl) fun _ => rfl)
  | function info noEvent =>
    exact none noEvent (.of_no_ticket
      (fun _ _ _ declared => absurd declared (Option.not_mem_none _)) (fun _ => rfl) fun _ => rfl)
  | aliases info noEvent =>
    exact none noEvent (.of_no_ticket (fun _ _ => trivial) (fun _ => rfl) fun _ => rfl)
  | defaults info noEvent =>
    exact none noEvent (.of_no_ticket (fun _ _ => trivial) (fun _ => rfl) fun _ => rfl)
  | command info noEvent =>
    refine none noEvent (.of_no_event ?_ (fun _ _ => trivial) fun _ => rfl)
    rintro ticket _ ⟨⟩
    rfl
  | event info filter builtIn name eventClass isEvent =>
    refine ⟨⟨?_, fun _ _ => trivial, ?_⟩, ?_⟩
    · rintro ticket _ ⟨⟩
      rfl
    · rintro ticket _ ⟨⟩ _ ⟨⟩ header
      exact builtIn.start header
    · rw [isEvent]
      rintro _ ⟨⟩
      exact List.nodup_singleton _

/-- The structures that every host has are built in. -/
theorem Registry.standard_builtIn : standard.BuiltIn :=
  fun _ member => (mem_standard member).builtIn

end ScriptBinding
