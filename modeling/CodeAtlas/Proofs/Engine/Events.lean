import CodeAtlas.Proofs.Engine.Scene

/-!
# What a listener is told

Call diagrams are entered and left by many operations, and a listener knows of
them by events only.  Whenever the events are taken from the queue, entering and
leaving are told by turns, so that a listener always knows what is shown, and a
call is reported as clicked only while its diagram is shown.
-/

namespace CodeAtlas

variable {R : Type} {engine next : Engine R}

namespace Event

/-- Whether the event tells that a call diagram comes or goes. -/
def isPassage : Event R → Bool
  | sequenceEntered _ _ | sequenceExited => true
  | _ => false

/-- The events that tell of call diagrams that come and go. -/
def passages (events : List (Event R)) : List (Event R) :=
  events.filter isPassage

/-- Entered and left by turns, entered first. -/
def alternate : List (Event R) → Bool
  | [] => true
  | [sequenceEntered _ _] => true
  | sequenceEntered _ _ :: sequenceExited :: rest => alternate rest
  | _ => false

/-- Root and number of calls of the call diagram that was entered last, unless
it was left. -/
def entered? (events : List (Event R)) : Option (NodeId × Nat) :=
  match (passages events).getLast? with
  | some (sequenceEntered root count) => some (root, count)
  | _ => none

theorem entered?_eq_some_iff {events : List (Event R)} {root : NodeId} {count : Nat} :
    entered? events = some (root, count) ↔
      (passages events).getLast? = some (sequenceEntered root count) := by
  unfold entered?
  split <;> simp_all

@[simp]
theorem passages_append (events news : List (Event R)) :
    passages (events ++ news) = passages events ++ passages news :=
  List.filter_append ..

theorem passages_cons_of_plain {event : Event R} (plain : event.isPassage = false)
    (events : List (Event R)) : passages (event :: events) = passages events := by
  simp [passages, plain]

theorem passages_eq_nil {events : List (Event R)}
    (plain : ∀ event ∈ events, event.isPassage = false) : passages events = [] := by
  simpa [passages, List.filter_eq_nil_iff] using plain

theorem alternate_entered {events : List (Event R)} (turns : alternate events = true)
    (closed : ∀ root count, events.getLast? ≠ some (sequenceEntered root count)) (root : NodeId)
    (count : Nat) : alternate (events ++ [sequenceEntered root count]) = true := by
  fun_induction alternate events with
  | case1 => rfl
  | case2 first size => exact absurd rfl (closed first size)
  | case3 first size rest ih =>
    apply ih turns
    intro other number last
    apply closed other number
    simp [List.getLast?_cons, last]
  | case4 => cases turns

theorem alternate_exited {events : List (Event R)} (turns : alternate events = true)
    {root : NodeId} {count : Nat} (opened : events.getLast? = some (sequenceEntered root count)) :
    alternate (events ++ [sequenceExited]) = true := by
  fun_induction alternate events with
  | case1 => cases opened
  | case2 => rfl
  | case3 first size rest ih =>
    apply ih turns
    cases rest with
    | nil => cases opened
    | cons event rest => simpa [List.getLast?_cons] using opened
  | case4 => cases turns

/-- What follows on entering is leaving. -/
theorem exited_of_alternate {events rest : List (Event R)} {event : Event R}
    (turns : alternate events = true) (whole : alternate (events ++ event :: rest) = true)
    {root : NodeId} {count : Nat}
    (opened : events.getLast? = some (sequenceEntered root count)) : event = sequenceExited := by
  fun_induction alternate events with
  | case1 => cases opened
  | case2 => cases event <;> first | rfl | cases whole
  | case3 first size middle ih =>
    apply ih turns whole
    cases middle with
    | nil => cases opened
    | cons event middle => simpa [List.getLast?_cons] using opened
  | case4 => cases turns

end Event

namespace ViewMode

/-- Root and number of calls of the call diagram that is shown. -/
def shown? : ViewMode R → Option (NodeId × Nat)
  | graph => none
  | sequence view => some (view.rootId, view.calls.length)

/-- What is told when the mode is given up for the map. -/
def parting : ViewMode R → List (Event R)
  | graph => []
  | sequence _ => [.sequenceExited]

/-- A listener who was told these events knows the mode. -/
structure ToldBy (mode : ViewMode R) (events : List (Event R)) : Prop where
  turns : Event.alternate (Event.passages events) = true
  entered : Event.entered? events = mode.shown?

variable {mode : ViewMode R} {events : List (Event R)}

theorem ToldBy.plain (told : mode.ToldBy events) {news : List (Event R)}
    (plain : ∀ event ∈ news, event.isPassage = false) : mode.ToldBy (events ++ news) := by
  have same : Event.passages (events ++ news) = Event.passages events := by
    rw [Event.passages_append, Event.passages_eq_nil plain, List.append_nil]
  constructor
  · rw [same]
    exact told.turns
  · rw [Event.entered?, same]
    exact told.entered

theorem ToldBy.parting (told : mode.ToldBy events) :
    graph.ToldBy (events ++ mode.parting) := by
  cases mode with
  | graph => simpa [ViewMode.parting] using told
  | sequence view =>
    have opened := Event.entered?_eq_some_iff.mp told.entered
    constructor
    · rw [Event.passages_append]
      exact Event.alternate_exited told.turns opened
    · simp [Event.entered?, Event.passages, ViewMode.parting, Event.isPassage, shown?]

theorem ToldBy.entering (told : graph.ToldBy events) (view : SequenceView R) :
    (sequence view).ToldBy (events ++ [.sequenceEntered view.rootId view.calls.length]) := by
  have closed : ∀ root count,
      (Event.passages events).getLast? ≠ some (.sequenceEntered root count) := by
    intro root count opened
    have entered := told.entered
    rw [Event.entered?_eq_some_iff.mpr opened] at entered
    cases entered
  constructor
  · rw [Event.passages_append]
    exact Event.alternate_entered told.turns closed view.rootId view.calls.length
  · simp [Event.entered?, Event.passages, Event.isPassage, shown?]

/-- What can be told while the mode changes: nothing of call diagrams but a click
on a call of the one that is shown, that the map is shown again, or that calls
are shown. -/
inductive Tells (mode next : ViewMode R) (news : List (Event R)) : Prop
  | kept (same : next = mode) (plain : ∀ event ∈ news, event.isPassage = false)
      (clicked : ∀ call, .callArrowClicked call ∈ news → news = [.callArrowClicked call] ∧
        ∃ view, mode = .sequence view ∧ call ∈ view.calls)
  | left (map : next = .graph) (rest : List (Event R)) (newsEq : news = mode.parting ++ rest)
      (plain : ∀ event ∈ rest, event.isPassage = false)
      (unclicked : ∀ call, .callArrowClicked call ∉ rest)
  | shown (view : SequenceView R) (calls : next = .sequence view)
      (newsEq : news = mode.parting ++ [.sequenceEntered view.rootId view.calls.length])

theorem ToldBy.tells {next : ViewMode R} {news : List (Event R)} (told : mode.ToldBy events)
    (tells : mode.Tells next news) : next.ToldBy (events ++ news) := by
  cases tells with
  | kept same plain _ =>
    rw [same]
    exact told.plain plain
  | left map rest newsEq plain _ =>
    rw [map, newsEq, ← List.append_assoc]
    exact told.parting.plain plain
  | shown view calls newsEq =>
    rw [calls, newsEq, ← List.append_assoc]
    exact told.parting.entering view

/-- A click on a call is told alone, while the call is shown. -/
theorem Tells.clicked {next : ViewMode R} {news : List (Event R)} (tells : mode.Tells next news)
    {call : Call} (mem : .callArrowClicked call ∈ news) :
    news = [.callArrowClicked call] ∧ ∃ view, mode = .sequence view ∧ call ∈ view.calls := by
  have unparted : .callArrowClicked call ∉ mode.parting := by
    cases mode <;> simp [ViewMode.parting]
  cases tells with
  | kept _ _ clicked => exact clicked call mem
  | left _ rest newsEq _ unclicked =>
    rw [newsEq, List.mem_append] at mem
    rcases mem with parted | told
    · exact absurd parted unparted
    · exact absurd told (unclicked call)
  | shown view _ newsEq =>
    rw [newsEq, List.mem_append] at mem
    rcases mem with parted | told
    · exact absurd parted unparted
    · simp at told

end ViewMode

/-- Taking the oldest event loses none. -/
theorem EventQueue.toList_receive_append (queue : EventQueue R) :
    queue.receive.1.toList ++ queue.receive.2.pending = queue.pending := by
  unfold receive
  cases waiting : queue.pending <;> simp [waiting]

variable [Scalar R]

theorem SequenceView.rootId_of_build {reg lending : Registry R} {root : NodeId}
    {settings : SequenceSettings R} {interaction : InteractionSettings R} {view : SequenceView R}
    (built : build reg root settings interaction = some (view, lending)) :
    view.rootId = root := by
  simp only [build, Option.bind_eq_bind, Option.bind_eq_some_iff] at built
  obtain ⟨calls, _, method, _, made⟩ := built
  cases made
  rfl

namespace Engine

omit [Scalar R] in
theorem sequence?_eq_some_iff {view : SequenceView R} :
    engine.sequence? = some view ↔ engine.mode = .sequence view := by
  unfold sequence?
  cases engine.mode <;> simp

/-! ## What an operation tells -/

omit [Scalar R] in
theorem pending_leaveSequence (engine : Engine R) :
    engine.leaveSequence.2.events.pending = engine.events.pending ++ engine.mode.parting := by
  unfold leaveSequence
  cases engine.mode with
  | graph => exact (List.append_nil _).symm
  | sequence view => rfl

theorem events_relayout (engine : Engine R) : engine.relayout.events = engine.events := by
  obtain ⟨reg, relayoutEq, _⟩ := engine.relayout_eq
  rw [relayoutEq]
  rfl

theorem events_fitToContent (engine : Engine R) :
    engine.fitToContent.2.events = engine.events := by
  unfold fitToContent
  split <;> rfl

/-- The queue grows by what is told. -/
def Publishes (engine next : Engine R) : Prop :=
  ∃ news, next.events.pending = engine.events.pending ++ news ∧ engine.mode.Tells next.mode news

omit [Scalar R] in
/-- Telling nothing in the same mode. -/
theorem publishes_nothing (events : next.events = engine.events)
    (mode : next.mode = engine.mode) : engine.Publishes next :=
  ⟨[], by rw [events, List.append_nil], .kept mode (by simp) (by simp)⟩

omit [Scalar R] in
/-- Leaving a call diagram and telling something else thereafter. -/
theorem publishes_left (rest : List (Event R))
    (pending : next.events.pending = engine.events.pending ++ engine.mode.parting ++ rest)
    (map : next.mode = .graph) (plain : ∀ event ∈ rest, event.isPassage = false)
    (unclicked : ∀ call, .callArrowClicked call ∉ rest) : engine.Publishes next :=
  ⟨engine.mode.parting ++ rest, by rw [pending, List.append_assoc],
    .left map rest rfl plain unclicked⟩

/-- Leaving a call diagram and laying out the map. -/
theorem publishes_relayout {engine left : Engine R}
    (pending : left.events.pending = engine.events.pending ++ engine.mode.parting)
    (map : left.mode = .graph) : engine.Publishes left.relayout := by
  apply publishes_left []
  · rw [events_relayout, pending, List.append_nil]
  · exact (mode_relayout left).trans map
  · simp
  · simp

/-- What the camera shows is not told. -/
theorem Publishes.fitToContent
    (publishes : engine.Publishes next) : engine.Publishes next.fitToContent.2 := by
  obtain ⟨news, pending, tells⟩ := publishes
  refine ⟨news, ?_, ?_⟩
  · rw [events_fitToContent, pending]
  · rw [mode_fitToContent]
    exact tells

omit [Scalar R] in
/-- Telling one event that is neither of a passage nor of a call. -/
theorem publishes_plain {event : Event R} (events : next.events = engine.events.publish event)
    (mode : next.mode = engine.mode) (plain : event.isPassage = false)
    (unclicked : ∀ call, event ≠ .callArrowClicked call) :
    engine.Publishes next := by
  refine ⟨[event], by rw [events]; rfl, .kept mode (by simpa using plain) ?_⟩
  intro call mem
  exact absurd (List.mem_singleton.mp mem).symm (unclicked call)

theorem publishes_click (engine : Engine R) (screen : Vec R) :
    engine.Publishes (engine.click screen).2 := by
  unfold click
  dsimp only
  split
  case h_6 index _ =>
    split
    · next call found =>
        refine ⟨[.callArrowClicked call], rfl, .kept rfl (by simp [Event.isPassage]) ?_⟩
        intro other mem
        cases List.mem_singleton.mp mem
        refine ⟨rfl, ?_⟩
        obtain ⟨view, shown, got⟩ := Option.bind_eq_some_iff.mp found
        exact ⟨view, sequence?_eq_some_iff.mp shown, List.mem_of_getElem? got⟩
    · exact publishes_nothing rfl rfl
  case h_7 => exact publishes_nothing rfl rfl
  case h_8 => exact publishes_nothing rfl rfl
  case h_9 => exact publishes_nothing rfl rfl
  all_goals exact publishes_plain rfl rfl rfl nofun

theorem publishes_rightClick (engine : Engine R) (screen : Vec R) :
    engine.Publishes (engine.rightClick screen) := by
  unfold rightClick
  split
  · exact publishes_nothing rfl rfl
  · exact publishes_plain rfl rfl rfl nofun

theorem publishes_of_viewing {operation : Operation R} (viewing : operation.isViewing = true)
    (applied : engine.apply operation = .ok next) :
    engine.Publishes next := by
  cases operation with
  | fitToContent =>
    cases applied
    exact publishes_nothing (events_fitToContent engine) (mode_fitToContent engine)
  | resize width height =>
    cases applied
    exact publishes_nothing rfl rfl
  | pointerDown screen button =>
    cases applied
    exact publishes_nothing rfl rfl
  | pointerMove screen =>
    cases applied
    unfold pointerMove
    dsimp only
    split <;> exact publishes_nothing rfl rfl
  | pointerUp screen button =>
    cases applied
    unfold pointerUp
    dsimp only
    split
    · exact publishes_click { engine with pointer := (engine.pointer.up screen button).2 } _
    · exact publishes_rightClick { engine with pointer := (engine.pointer.up screen button).2 } _
    · exact publishes_nothing rfl rfl
  | pointerLeave =>
    cases applied
    exact publishes_nothing rfl rfl
  | wheel screen notches =>
    obtain ⟨camera, rfl⟩ := apply_wheel_eq applied
    exact publishes_nothing rfl rfl
  | _ => cases viewing

section

variable (engine)

theorem publishes_withRows (change : Bool × Registry R) :
    engine.Publishes (engine.withRows change).2 := by
  rcases change with ⟨changed, reg⟩
  cases changed with
  | false => exact publishes_nothing rfl rfl
  | true =>
    exact publishes_relayout (pending_leaveSequence { engine with registry := reg })
      (mode_leaveSequence { engine with registry := reg })

theorem publishes_setPerspective (perspective : Perspective) :
    engine.Publishes (engine.setPerspective perspective).2 := by
  unfold setPerspective
  split
  · exact publishes_nothing rfl rfl
  · apply publishes_left [.perspectiveChanged perspective]
    · exact congrArg (· ++ _) (pending_leaveSequence engine)
    · exact mode_leaveSequence engine
    · simp [Event.isPassage]
    · simp

theorem publishes_clear : engine.Publishes engine.clear := by
  apply publishes_left [.sceneCleared]
  · exact congrArg (· ++ _) (pending_leaveSequence engine)
  · exact mode_leaveSequence engine
  · simp [Event.isPassage]
  · simp

theorem publishes_addData (nodes : List Node) (links : List Relationship) :
    engine.Publishes (engine.addData nodes links).2 := by
  unfold addData
  dsimp only
  split
  · exact publishes_relayout (pending_leaveSequence _) (mode_leaveSequence _)
  · exact publishes_nothing rfl rfl

theorem publishes_deleteNode (id : NodeId) : engine.Publishes (engine.deleteNode id).2 := by
  unfold deleteNode
  rcases engine.registry.deleteNode id with ⟨found, reg⟩
  cases found with
  | false => exact publishes_nothing rfl rfl
  | true =>
    exact publishes_relayout (pending_leaveSequence { engine with registry := reg })
      (mode_leaveSequence { engine with registry := reg })

theorem publishes_focusOnClass (classId : NodeId) :
    engine.Publishes (engine.focusOnClass classId).2 := by
  unfold focusOnClass
  rcases engine.registry.focusOnClass classId with ⟨found, reg⟩
  cases found with
  | false => exact publishes_nothing rfl rfl
  | true =>
    apply Publishes.fitToContent
    exact publishes_relayout (pending_leaveSequence { engine with registry := reg })
      (mode_leaveSequence { engine with registry := reg })

theorem publishes_exitSequence : engine.Publishes engine.exitSequence.2 := by
  have pending := pending_leaveSequence engine
  have map := mode_leaveSequence engine
  unfold exitSequence
  rcases left : engine.leaveSequence with ⟨shown, after⟩
  rw [left] at pending map
  have publishes : engine.Publishes after :=
    publishes_left [] (by rw [pending, List.append_nil]) map (by simp) (by simp)
  cases shown with
  | false => exact publishes
  | true =>
    apply Publishes.fitToContent
    exact publishes

theorem publishes_showSequence (root : NodeId) : engine.Publishes (engine.showSequence root).2 := by
  unfold showSequence
  dsimp only
  split
  · apply publishes_left []
    · rw [pending_leaveSequence, List.append_nil]
    · exact mode_leaveSequence engine
    · simp
    · simp
  · next view lending built =>
      let shown := { engine.leaveSequence.2 with
        registry := lending, mode := .sequence view, interaction := {} }.rebuildScene
      refine ⟨engine.mode.parting ++ [.sequenceEntered root view.calls.length], ?_, ?_⟩
      · change shown.fitToContent.2.events.pending ++ [_] = _
        rw [events_fitToContent, ← List.append_assoc]
        exact congrArg (· ++ _) (pending_leaveSequence engine)
      · apply ViewMode.Tells.shown view (mode_fitToContent shown)
        rw [SequenceView.rootId_of_build built]

end

/-- Every operation tells what it does to call diagrams. -/
theorem publishes_of_apply {operation : Operation R}
    (applied : engine.apply operation = .ok next) : engine.Publishes next := by
  by_cases viewing : operation.isViewing = true
  · exact publishes_of_viewing viewing applied
  cases rows : engine.rowsResult? operation with
  | some change =>
    rw [apply_of_rows rows] at applied
    exact Except.ok.inj applied ▸ publishes_withRows engine change
  | none =>
    cases operation with
    | setPerspective perspective =>
      exact Except.ok.inj applied ▸ publishes_setPerspective engine perspective
    | setData nodes links =>
      obtain rfl := Except.ok.inj applied
      apply Publishes.fitToContent
      exact publishes_relayout (pending_leaveSequence engine) (mode_leaveSequence engine)
    | addData nodes links =>
      exact Except.ok.inj applied ▸ publishes_addData engine nodes links
    | deleteNode id => exact Except.ok.inj applied ▸ publishes_deleteNode engine id
    | clear => exact Except.ok.inj applied ▸ publishes_clear engine
    | focusOnClass classId => exact Except.ok.inj applied ▸ publishes_focusOnClass engine classId
    | showSequence root => exact Except.ok.inj applied ▸ publishes_showSequence engine root
    | exitSequence => exact Except.ok.inj applied ▸ publishes_exitSequence engine
    | relayout =>
      exact Except.ok.inj applied ▸
        publishes_nothing (events_relayout engine) (mode_relayout engine)
    | _ => first | exact absurd rfl viewing | cases rows

end Engine

/-! ## Listeners -/

/-- A diagram with a listener, who takes events from its queue. -/
structure Audience (R : Type) where
  engine : Engine R
  /-- The events taken so far, oldest first. -/
  heard : List (Event R) := []

namespace Audience

/-- What happens between a diagram and its listener: something is asked of the
diagram, or the listener takes the oldest event or all of them. -/
inductive Step (R : Type) where
  | operate (operation : Engine.Operation R)
  | receive
  | drain

def apply (audience : Audience R) : Step R → Except Fault (Audience R)
  | .operate operation =>
    (audience.engine.apply operation).map fun engine => { audience with engine }
  | .receive =>
    let (event, events) := audience.engine.events.receive
    .ok ⟨{ audience.engine with events }, audience.heard ++ event.toList⟩
  | .drain =>
    let (taken, events) := audience.engine.events.drain
    .ok ⟨{ audience.engine with events }, audience.heard ++ taken⟩

/-- Diagram and listener after some steps, the first one first, unless one of
them fails. -/
def run (audience : Audience R) (steps : List (Step R)) : Except Fault (Audience R) :=
  steps.foldlM apply audience

/-- All events that the diagram has published, taken or not, oldest first. -/
def published (audience : Audience R) : List (Event R) :=
  audience.heard ++ audience.engine.events.pending

/-- Taking events neither adds nor loses any, and every operation adds what it
tells. -/
theorem exists_news_of_apply {audience next : Audience R} {step : Step R}
    (applied : audience.apply step = .ok next) :
    ∃ news, next.published = audience.published ++ news ∧
      audience.engine.mode.Tells next.engine.mode news ∧
      (news ≠ [] → ∃ operation, step = .operate operation) := by
  have silent : audience.engine.mode.Tells audience.engine.mode [] :=
    .kept rfl (by simp) (by simp)
  cases step with
  | operate operation =>
    cases operated : audience.engine.apply operation with
    | error fault =>
      rw [apply, operated] at applied
      cases applied
    | ok engine =>
      rw [apply, operated] at applied
      obtain rfl := Except.ok.inj applied
      obtain ⟨news, pending, tells⟩ := Engine.publishes_of_apply operated
      refine ⟨news, ?_, tells, fun _ => ⟨operation, rfl⟩⟩
      simp [published, pending]
  | receive =>
    cases applied
    refine ⟨[], ?_, silent, by simp⟩
    change audience.heard ++ audience.engine.events.receive.1.toList ++
      audience.engine.events.receive.2.pending = audience.published ++ []
    rw [List.append_assoc, EventQueue.toList_receive_append, List.append_nil]
    rfl
  | drain =>
    cases applied
    exact ⟨[], by simp [published], silent, by simp⟩

theorem toldBy_of_run {start audience : Audience R} {steps : List (Step R)}
    (told : start.engine.mode.ToldBy start.published) (ran : start.run steps = .ok audience) :
    audience.engine.mode.ToldBy audience.published := by
  induction steps using List.reverseRecOn generalizing audience with
  | nil =>
    cases ran
    exact told
  | append_singleton steps step ih =>
    obtain ⟨before, ranBefore, applied⟩ := foldlM_concat_eq_ok.mp ran
    obtain ⟨news, publishedEq, tells, _⟩ := exists_news_of_apply applied
    rw [publishedEq]
    exact (ih ranBefore).tells tells

/-- A click on a call is told by an operation on a diagram that shows the call. -/
theorem shown_of_clicked {start audience : Audience R} {steps : List (Step R)}
    (silent : start.published = []) (ran : start.run steps = .ok audience)
    {before after : List (Event R)} {call : Call}
    (split : audience.published = before ++ .callArrowClicked call :: after) :
    ∃ earlier operation later middle view, steps = earlier ++ .operate operation :: later ∧
      start.run earlier = .ok middle ∧ middle.published = before ∧
      middle.engine.mode = .sequence view ∧ call ∈ view.calls := by
  induction steps using List.reverseRecOn generalizing audience after with
  | nil =>
    cases ran
    simp [silent] at split
  | append_singleton steps step ih =>
    obtain ⟨middle, ranMiddle, applied⟩ := foldlM_concat_eq_ok.mp ran
    obtain ⟨news, publishedEq, tells, told⟩ := exists_news_of_apply applied
    have fromLast : ∀ fresh, before = middle.published ++ fresh →
        news = fresh ++ .callArrowClicked call :: after →
        ∃ operation view, step = .operate operation ∧ middle.published = before ∧
          middle.engine.mode = .sequence view ∧ call ∈ view.calls := by
      intro fresh beforeEq newsEq
      have mem : .callArrowClicked call ∈ news := by simp [newsEq]
      obtain ⟨alone, view, mode, calls⟩ := tells.clicked mem
      obtain ⟨operation, stepEq⟩ := told (List.ne_nil_of_mem mem)
      cases fresh with
      | nil => exact ⟨operation, view, stepEq, by simp [beforeEq], mode, calls⟩
      | cons event fresh => simp [alone] at newsEq
    -- The click is what the last step told, or it was told before.
    rw [publishedEq, List.append_eq_append_iff] at split
    rcases split with ⟨fresh, beforeEq, newsEq⟩ | ⟨rest, middleEq, restEq⟩
    · obtain ⟨operation, view, rfl, found⟩ := fromLast fresh beforeEq newsEq
      exact ⟨steps, operation, [], middle, view, rfl, ranMiddle, found⟩
    · cases rest with
      | nil =>
        rw [List.append_nil] at middleEq
        obtain ⟨operation, view, rfl, found⟩ :=
          fromLast [] (by rw [middleEq, List.append_nil]) restEq.symm
        exact ⟨steps, operation, [], middle, view, rfl, ranMiddle, found⟩
      | cons event rest =>
        cases restEq
        obtain ⟨earlier, operation, later, shown, view, rfl, found⟩ :=
          ih ranMiddle middleEq
        exact ⟨earlier, operation, later ++ [step], shown, view, by simp, found⟩

/-- However a new diagram is used and whenever its events are taken: a call
diagram is entered and left by turns in the published events; calls are shown
exactly if the last of these events tells that they were entered, and then it
tells the root and the number of the calls that are shown; and a click on a call
is told after calls were entered and before they are left, by an operation on a
diagram that shows the call. -/
theorem passages_told_by_turns (config : EngineConfig R) (text : TextMetrics R)
    (layouter : Layouter R) (viewport : Vec R) (steps : List (Step R)) {audience : Audience R}
    (ran : Audience.run ⟨.withLayouter config text layouter viewport, []⟩ steps = .ok audience) :
    let passages := Event.passages audience.published
    Event.alternate passages = true ∧
    (audience.engine.isSequence = true ↔
      ∃ root count, passages.getLast? = some (.sequenceEntered root count)) ∧
    (∀ view, audience.engine.sequence? = some view →
      passages.getLast? = some (.sequenceEntered view.rootId view.calls.length)) ∧
    ∀ before call after, audience.published = before ++ .callArrowClicked call :: after →
      ∃ earlier operation later middle view, steps = earlier ++ .operate operation :: later ∧
        Audience.run ⟨.withLayouter config text layouter viewport, []⟩ earlier = .ok middle ∧
        middle.published = before ∧
        middle.engine.sequence? = some view ∧ call ∈ view.calls ∧
        (Event.passages before).getLast? =
          some (.sequenceEntered view.rootId view.calls.length) ∧
        ∀ event, (Event.passages after).head? = some event → event = .sequenceExited := by
  intro passages
  have start : ViewMode.graph.ToldBy ([] : List (Event R)) := ⟨rfl, rfl⟩
  have told := toldBy_of_run start ran
  have known : ∀ view, audience.engine.sequence? = some view →
      passages.getLast? = some (.sequenceEntered view.rootId view.calls.length) := by
    intro view shown
    apply Event.entered?_eq_some_iff.mp
    rw [told.entered, Engine.sequence?_eq_some_iff.mp shown]
    rfl
  refine ⟨told.turns, ?_, known, ?_⟩
  · rw [Engine.isSequence, Option.isSome_iff_exists]
    constructor
    · rintro ⟨view, shown⟩
      exact ⟨_, _, known view shown⟩
    · rintro ⟨root, count, last⟩
      have entered := Event.entered?_eq_some_iff.mpr last
      rw [told.entered] at entered
      cases mode : audience.engine.mode with
      | graph =>
        rw [mode] at entered
        cases entered
      | sequence view => exact ⟨view, Engine.sequence?_eq_some_iff.mpr mode⟩
  · intro before call after split
    obtain ⟨earlier, operation, later, middle, view, stepsEq, ranEarlier, rfl, mode, calls⟩ :=
      shown_of_clicked rfl ran split
    have toldBefore := toldBy_of_run start ranEarlier
    rw [mode] at toldBefore
    have opened := Event.entered?_eq_some_iff.mp toldBefore.entered
    refine ⟨earlier, operation, later, middle, view, stepsEq, ranEarlier, rfl,
      Engine.sequence?_eq_some_iff.mpr mode, calls, opened, ?_⟩
    intro event first
    obtain ⟨rest, afterEq⟩ := List.head?_eq_some_iff.mp first
    have turns := told.turns
    rw [split, Event.passages_append, Event.passages_cons_of_plain rfl, afterEq] at turns
    exact Event.exited_of_alternate toldBefore.turns turns opened

/-- A listener who has taken all events knows that calls are shown. -/
theorem passages_told_sample :
    ∃ audience, Audience.run ⟨Engine.sampleStart, []⟩
        [.operate (.setData Engine.sampleNodes Engine.sampleClaims),
          .operate (.showSequence "method"), .drain] = .ok audience ∧
      audience.engine.events.pending = [] ∧
      Event.alternate (Event.passages audience.published) = true ∧
      ∃ root count, (Event.passages audience.published).getLast? =
        some (.sequenceEntered root count) := by
  obtain ⟨engine, opened, _, shown, _⟩ := Engine.showSequence_sample
  obtain ⟨audience, made⟩ : ∃ audience : Audience Float32,
      audience = ⟨{ engine with events := ⟨[]⟩ }, engine.events.pending⟩ := ⟨_, rfl⟩
  have ran : Audience.run ⟨Engine.sampleStart, []⟩
      [.operate (.setData Engine.sampleNodes Engine.sampleClaims),
        .operate (.showSequence "method"), .drain] = .ok audience := by
    change Audience.apply ⟨((Engine.sampleStart.setData Engine.sampleNodes
      Engine.sampleClaims).2.showSequence "method").2, []⟩ .drain = .ok audience
    rw [opened, made]
    rfl
  have isSequence : audience.engine.isSequence = true := by
    rw [made]
    exact shown
  obtain ⟨turns, mode, _⟩ := passages_told_by_turns .standard _ _ _ _ ran
  exact ⟨audience, ran, by rw [made], turns, mode.mp isSequence⟩

end Audience

end CodeAtlas
