import MethodTracing.Proofs.Machine.Worlds

/-!
# Worlds that agree up to the places of objects

Two runs that make their objects at different times find them in different places.  A list of images
says where the objects of the one world lie in the other; the other one may hold more.  The sinks of
both answer alike.  Main statements: whatever changes both worlds in the same way keeps them in
agreement.
-/

namespace MethodTracing
namespace Machine

/-- Images that were found stay when there are more of them. -/
theorem found_mono {images more : List ObjectId} {index : Nat} {image : ObjectId}
    (grows : images <+: more) (found : images[index]? = some image) :
    more[index]? = some image := by
  obtain ⟨rest, rfl⟩ := grows
  rwa [List.getElem?_append_left (List.getElem?_eq_some_iff.mp found).1]

/-- Equal values, except that an object is replaced by its image. -/
inductive Value.Matches (images : List ObjectId) : Value → Value → Prop
  | int (value : Int32) : Matches images (.int value) (.int value)
  | long (value : Int64) : Matches images (.long value) (.long value)
  | reference {object image : ObjectId} : images[object.index]? = some image →
      Matches images (.reference object) (.reference image)
  | top : Matches images .top .top

namespace Value.Matches

variable {images : List ObjectId} {value image : Value}

theorem width_eq (matched : value.Matches images image) : image.width = value.width := by
  cases matched <;> rfl

theorem mono {more : List ObjectId} (grows : images <+: more)
    (matched : value.Matches images image) :
    value.Matches more image := by
  cases matched with
  | int value => exact .int value
  | long value => exact .long value
  | reference found => exact .reference (found_mono grows found)
  | top => exact .top

end Value.Matches

/-! ## Sinks -/

namespace Sink

/-- A sink that neither refuses a line nor fails to hand over its lines, whatever came before. -/
def IsReliable (sink : Sink) : Prop :=
  sink.failure? = reliable.failure?

/-- Sinks that do the same from now on: they are in the same state, or neither ever fails. -/
def Agrees (sink image : Sink) : Prop :=
  image = sink ∨ sink.IsReliable ∧ image.IsReliable

theorem IsReliable.refusal?_eq {sink : Sink} (never_fails : sink.IsReliable) (request : Request) :
    sink.refusal? request = none := by
  rw [refusal?, never_fails]
  cases request <;> rfl

namespace Agrees

variable {sink image : Sink}

theorem refusal?_eq (agrees : sink.Agrees image) (request : Request) :
    image.refusal? request = sink.refusal? request := by
  rcases agrees with rfl | ⟨here, there⟩
  · rfl
  · rw [here.refusal?_eq, there.refusal?_eq]

theorem after (agrees : sink.Agrees image) (request : Request) :
    (sink.after request).Agrees (image.after request) := by
  rcases agrees with rfl | neither_fails
  · exact Or.inl rfl
  · exact Or.inr neither_fails

theorem isReliable_iff (agrees : sink.Agrees image) : image.IsReliable ↔ sink.IsReliable := by
  rcases agrees with rfl | ⟨here, there⟩
  · rfl
  · exact iff_of_true there here

/-- Where nothing ever fails, the other sink may be asked for more. -/
theorem after_image (agrees : sink.Agrees image) (never_fails : image.IsReliable)
    (request : Request) : sink.Agrees (image.after request) :=
  Or.inr ⟨agrees.isReliable_iff.mp never_fails, never_fails⟩

end Agrees
end Sink

/-! ## Worlds -/

namespace World

/-- Each object of a world has an image of the same kind and text in another one, and what is shared
in the world is shared in the other. -/
structure Matches (images : List ObjectId) (world image : World) : Prop where
  coherent : image.Coherent
  size : images.length = world.heap.size
  objects : ∀ {object imaged}, images[object.index]? = some imaged →
    image.object? imaged = world.object? object
  /-- Texts under construction are kept apart. -/
  builders : ∀ {left right imaged content}, images[left.index]? = some imaged →
    images[right.index]? = some imaged → world.object? left = some (.builder content) → left = right
  constants : ∀ {content object}, world.constants.lookup content = some object →
    ∃ imaged, images[object.index]? = some imaged ∧ image.constants.lookup content = some imaged
  console : ∀ {object}, world.console = some object →
    ∃ imaged, images[object.index]? = some imaged ∧ image.console = some imaged
  sink : world.sink.Agrees image.sink

/-- Any world may stand for one without objects. -/
theorem matches_initial (clock : Clock) {sink : Sink} {image : World} (coherent : image.Coherent)
    (sinks : sink.Agrees image.sink) : (initial clock sink).Matches [] image :=
  ⟨coherent, rfl, by simp, by simp, by simp [initial], by simp [initial], sinks⟩

namespace Matches

variable {images : List ObjectId} {world image later : World}

/-- Every image leads somewhere. -/
theorem exists_object (matched : world.Matches images image) {object imaged : ObjectId}
    (found : images[object.index]? = some imaged) :
    ∃ content, world.object? object = some content ∧ image.object? imaged = some content := by
  have in_range : object.index < world.heap.size :=
    matched.size ▸ (List.getElem?_eq_some_iff.mp found).1
  have here : world.object? object = some world.heap[object.index] :=
    Array.getElem?_eq_getElem in_range
  exact ⟨_, here, (matched.objects found).trans here⟩

/-- The other world may go on by itself. -/
theorem keep (matched : world.Matches images image) (extends_image : image.Extends later)
    (coherent : later.Coherent) (sinks : world.sink.Agrees later.sink) :
    world.Matches images later := by
  refine ⟨coherent, matched.size, fun found => ?_, matched.builders, fun shared => ?_,
    fun shared => ?_, sinks⟩
  · obtain ⟨content, here, there⟩ := matched.exists_object found
    rw [here, extends_image.objects there]
  · obtain ⟨imaged, found, imaged_shared⟩ := matched.constants shared
    exact ⟨imaged, found, extends_image.constants imaged_shared⟩
  · obtain ⟨imaged, found, imaged_shared⟩ := matched.console shared
    exact ⟨imaged, found, extends_image.console imaged_shared⟩

/-- A new object of a world gets an image.  A text may have an image that was there before, a text
under construction may not. -/
theorem allocate (matched : world.Matches images image) (made : Object) {imaged : ObjectId}
    (extends_image : image.Extends later) (coherent : later.Coherent)
    (sink_eq : later.sink = image.sink) (made_there : later.object? imaged = some made)
    (fresh : ∀ content, made = .builder content → image.object? imaged = none) :
    (world.allocate made).1.Matches (images ++ [imaged]) later := by
  have kept := matched.keep extends_image coherent (sink_eq ▸ matched.sink)
  have cases_of_found : ∀ {object other : ObjectId},
      (images ++ [imaged])[object.index]? = some other →
      images[object.index]? = some other ∨ object = (world.allocate made).2 ∧ other = imaged := by
    intro object other found
    rcases Nat.lt_or_ge object.index images.length with old | new
    · exact Or.inl (by rwa [List.getElem?_append_left old] at found)
    · rw [List.getElem?_append_right new, List.getElem?_singleton] at found
      split at found
      · rename_i first
        have index_eq : object.index = world.heap.size := by
          rw [← matched.size]
          omega
        exact Or.inr ⟨congrArg ObjectId.mk index_eq, (Option.some.inj found).symm⟩
      · simp at found
  have old_not_new : ∀ {object other : ObjectId}, images[object.index]? = some other →
      (world.allocate made).1.object? object = world.object? object := by
    intro object other found
    obtain ⟨content, here, -⟩ := matched.exists_object found
    rw [here, object?_allocate made here]
  refine ⟨coherent, by simp [World.allocate, matched.size], fun found => ?_,
    fun left_found right_found builds => ?_, fun shared => ?_, fun shared => ?_, kept.sink⟩
  · rcases cases_of_found found with old | ⟨rfl, rfl⟩
    · rw [old_not_new old, kept.objects old]
    · rw [made_there, object?_allocate_self]
  · rcases cases_of_found left_found with left_old | ⟨rfl, rfl⟩
    · rw [old_not_new left_old] at builds
      rcases cases_of_found right_found with right_old | ⟨rfl, rfl⟩
      · exact matched.builders left_old right_old builds
      · obtain rfl : made = _ := by
          have there := (kept.objects left_old).trans builds
          simpa [made_there] using there
        have nowhere := fresh _ rfl
        rw [matched.objects left_old, builds] at nowhere
        simp at nowhere
    · rw [object?_allocate_self, Option.some.injEq] at builds
      rcases cases_of_found right_found with right_old | ⟨rfl, -⟩
      · have nowhere := fresh _ builds
        obtain ⟨content, -, there⟩ := matched.exists_object right_old
        simp [there] at nowhere
      · rfl
  · obtain ⟨other, found, other_shared⟩ := kept.constants shared
    exact ⟨other, found_mono (List.prefix_append _ _) found, other_shared⟩
  · obtain ⟨other, found, other_shared⟩ := kept.console shared
    exact ⟨other, found_mono (List.prefix_append _ _) found, other_shared⟩

end Matches

/-! ## Changing both worlds -/

/-- Two worlds in agreement change in the same way: they print the same lines, and the clock of the
other one stands still. -/
structure Moves (images more : List ObjectId) (world after image later : World) : Prop where
  grows : images <+: more
  matched : after.Matches more later
  lines : ∃ lines, after.printed.toList = world.printed.toList ++ lines ∧
    later.printed.toList = image.printed.toList ++ lines
  clock : later.clock = image.clock

section Moves

variable {images : List ObjectId} {world image : World}

theorem Matches.stay (matched : world.Matches images image) :
    Moves images images world world image image :=
  ⟨List.prefix_rfl, matched, ⟨[], by simp⟩, rfl⟩

theorem Matches.moves_allocate (matched : world.Matches images image) (made : Object) :
    Moves images (images ++ [(image.allocate made).2]) world (world.allocate made).1 image
      (image.allocate made).1 :=
  ⟨List.prefix_append _ _,
    matched.allocate made (extends_allocate image made) (coherent_allocate matched.coherent made)
      rfl (object?_allocate_self image made) fun _ _ => object?_handle_of_allocate image made,
    ⟨[], by simp [World.allocate]⟩, rfl⟩

theorem found_allocate (matched : world.Matches images image) (made : Object) (imaged : ObjectId) :
    (images ++ [imaged])[(world.allocate made).2.index]? = some imaged := by
  simp [World.allocate, ← matched.size]

/-- The shared objects of a constant text are images of one another. -/
theorem Matches.moves_constant (matched : world.Matches images image) (content : String) :
    ∃ more, Moves images more world (world.constant content).1 image (image.constant content).1 ∧
      more[(world.constant content).2.index]? = some (image.constant content).2 := by
  obtain ⟨coherent, extends_image, shared, clock_eq, sink_eq, -⟩ :=
    constant_spec matched.coherent content
  cases known : world.constants.lookup content with
  | some object =>
      obtain ⟨imaged, found, imaged_shared⟩ := matched.constants known
      have same := (extends_image.constants imaged_shared).symm.trans shared
      have unchanged : world.constant content = (world, object) := by simp [World.constant, known]
      rw [unchanged]
      refine ⟨images, ⟨List.prefix_rfl,
        matched.keep extends_image coherent (sink_eq ▸ matched.sink), ⟨[], by simp⟩, clock_eq⟩, ?_⟩
      rw [found, same]
  | none =>
      have allocated := matched.allocate (.text content) extends_image coherent sink_eq
        (coherent.constants content _ shared) (by simp)
      have found := found_allocate matched (.text content) (image.constant content).2
      have made : world.constant content =
          ({ (world.allocate (.text content)).1 with
              constants := (content, (world.allocate (.text content)).2) :: world.constants },
            (world.allocate (.text content)).2) := by
        simp [World.constant, known, World.allocate]
      rw [made]
      refine ⟨_, ⟨List.prefix_append _ _, ⟨coherent, allocated.size, allocated.objects,
        allocated.builders, fun {other object} other_shared => ?_, allocated.console,
        allocated.sink⟩, ⟨[], by simp [World.allocate]⟩, clock_eq⟩, found⟩
      simp only [List.lookup_cons] at other_shared
      split at other_shared
      · rename_i same
        obtain rfl := Option.some.inj other_shared
        rw [beq_iff_eq.mp same]
        exact ⟨_, found, shared⟩
      · exact allocated.constants other_shared

/-- The shared consoles are images of one another. -/
theorem Matches.moves_console (matched : world.Matches images image) :
    ∃ more, Moves images more world world.theConsole.1 image image.theConsole.1 ∧
      more[world.theConsole.2.index]? = some image.theConsole.2 := by
  obtain ⟨coherent, extends_image, shared, clock_eq, sink_eq, -⟩ := theConsole_spec matched.coherent
  cases known : world.console with
  | some object =>
      obtain ⟨imaged, found, imaged_shared⟩ := matched.console known
      have same := (extends_image.console imaged_shared).symm.trans shared
      have unchanged : world.theConsole = (world, object) := by simp [theConsole, known]
      rw [unchanged]
      refine ⟨images, ⟨List.prefix_rfl,
        matched.keep extends_image coherent (sink_eq ▸ matched.sink), ⟨[], by simp⟩, clock_eq⟩, ?_⟩
      rw [found, Option.some.inj same]
  | none =>
      have allocated := matched.allocate .console extends_image coherent sink_eq
        (coherent.console _ shared) (by simp)
      have found := found_allocate matched .console image.theConsole.2
      have made : world.theConsole =
          ({ (world.allocate .console).1 with console := some (world.allocate .console).2 },
            (world.allocate .console).2) := by
        simp [theConsole, known]
      rw [made]
      refine ⟨_, ⟨List.prefix_append _ _, ⟨coherent, allocated.size, allocated.objects,
        allocated.builders, allocated.constants, fun other_shared => ?_, allocated.sink⟩,
        ⟨[], by simp [World.allocate]⟩, clock_eq⟩, found⟩
      obtain rfl := Option.some.inj other_shared
      exact ⟨_, found, shared⟩

/-- Both sinks are asked for the same. -/
theorem Matches.moves_ask (matched : world.Matches images image) (request : Request) :
    Moves images images world (world.ask request) image (image.ask request) :=
  ⟨List.prefix_rfl, ⟨coherent_ask matched.coherent request, matched.size, matched.objects,
    matched.builders, matched.constants, matched.console, matched.sink.after request⟩,
    ⟨[], by simp [World.ask]⟩, rfl⟩

theorem Matches.moves_print (matched : world.Matches images image) (line : String) :
    Moves images images world (world.print line) image (image.print line) :=
  ⟨List.prefix_rfl, ⟨coherent_print matched.coherent line, matched.size, matched.objects,
    matched.builders, matched.constants, matched.console, matched.sink.after (.line line)⟩,
    ⟨[line], by simp [World.print, World.ask]⟩, rfl⟩

/-- A text under construction and its image become longer together. -/
theorem Matches.moves_extend (matched : world.Matches images image) {receiver imaged : ObjectId}
    (found : images[receiver.index]? = some imaged) (builds : world.isBuilder receiver)
    (more : String) :
    Moves images images world (world.extend receiver more) image (image.extend imaged more) := by
  obtain ⟨content, here⟩ : ∃ content, world.object? receiver = some (.builder content) := by
    simp only [World.isBuilder] at builds
    split at builds
    · exact ⟨_, by assumption⟩
    · simp at builds
  have still_builds : ∀ {object : ObjectId} {text : String},
      (world.extend receiver more).object? object = some (.builder text) →
        ∃ earlier, world.object? object = some (.builder earlier) := by
    intro object text there
    rw [object?_extend] at there
    split at there
    · rename_i same
      exact ⟨content, same ▸ here⟩
    · exact ⟨text, there⟩
  refine ⟨List.prefix_rfl, ⟨coherent_extend matched.coherent _ _, ?_,
    fun {object other} other_found => ?_, fun left_found right_found there => ?_,
    matched.constants, matched.console, matched.sink⟩, ⟨[], by simp [World.extend]⟩, rfl⟩
  · simp [World.extend, matched.size]
  · rw [object?_extend, object?_extend, matched.objects other_found]
    by_cases same : receiver = object
    · subst same
      have imaged_same : imaged = other := Option.some.inj (found.symm.trans other_found)
      simp [imaged_same]
    · have apart : imaged ≠ other := by
        rintro rfl
        exact same (matched.builders found other_found here)
      simp [same, apart]
  · obtain ⟨earlier, there⟩ := still_builds there
    exact matched.builders left_found right_found there

end Moves

/-! ## Reading both worlds -/

/-- Whether a value is an object that is neither a text nor the console. -/
def isPlain (world : World) : Value → Bool
  | .reference object =>
      match world.object? object with
      | some (.plain _) => true
      | _ => false
  | _ => false

variable {images : List ObjectId} {world image : World}

/-- The printed form of a value shows its place only if it is a plain object. -/
theorem Matches.render_eq (matched : world.Matches images image) {value imaged : Value}
    (values : value.Matches images imaged) (readable : world.isPlain value = false) :
    image.render imaged = world.render value := by
  cases values with
  | reference found =>
      simp only [isPlain] at readable
      simp only [render, matched.objects found]
      split at readable
      · simp at readable
      · split <;> simp_all
  | _ => rfl

theorem Matches.isPlain_eq (matched : world.Matches images image) {value imaged : Value}
    (values : value.Matches images imaged) : image.isPlain imaged = world.isPlain value := by
  cases values with
  | reference found => simp only [isPlain, matched.objects found]
  | _ => rfl

theorem Matches.isBuilder_eq (matched : world.Matches images image) {object imaged : ObjectId}
    (found : images[object.index]? = some imaged) :
    image.isBuilder imaged = world.isBuilder object := by
  simp only [isBuilder, matched.objects found]

end World

/-- Equal values, or objects of the same kind and text. -/
inductive Value.Same (world image : World) : Value → Value → Prop
  | equal {value : Value} : (∀ object, value ≠ .reference object) → Same world image value value
  | object {object imaged : ObjectId} {content : Object} : world.object? object = some content →
      image.object? imaged = some content → Same world image (.reference object) (.reference imaged)

theorem Value.Same.ask {world image : World} {value value' : Value}
    (same : value.Same world image value') (request : Request) :
    value.Same (world.ask request) (image.ask request) value' := by
  cases same with
  | equal plain => exact .equal plain
  | object here there => exact .object here there

theorem World.Matches.same_of_matches {images : List ObjectId} {world image : World}
    (worlds : world.Matches images image) {value value' : Value}
    (values : value.Matches images value') : value.Same world image value' := by
  cases values with
  | reference found =>
      obtain ⟨content, here, there⟩ := worlds.exists_object found
      exact .object here there
  | _ => exact .equal (by simp)

end Machine
end MethodTracing
