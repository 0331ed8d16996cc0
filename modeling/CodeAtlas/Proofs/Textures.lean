import CodeAtlas.Proofs.Engine.History
import CodeAtlas.Proofs.Engine.Placement
import CodeAtlas.Viewer.Frame

/-!
# Textures show the labels of the pool

A host draws labels of a diagram at any time and drops copies of released labels
whenever it likes.  It never refreshes a copy, and need not: as long as a label
is live its picture stays the same, and its number is never given to another.
-/

namespace CodeAtlas

variable {R : Type}

namespace TextureCache

/-- Copies go by numbers that were given out, and the copy of a live label is the
picture of that label. -/
structure Mirrors (cache : TextureCache) (pool : Pool R) : Prop where
  given : ∀ id copy, cache.get? id = some copy → id ≤ pool.lastId
  current : ∀ id copy, cache.get? id = some copy → pool.contains id = true →
    pool.label? id = some copy

theorem mirrors_empty (pool : Pool R) : Mirrors {} pool :=
  ⟨nofun, nofun⟩

/-- What happens to the pool does no harm. -/
theorem Mirrors.becomes {cache : TextureCache} {pool next : Pool R} (mirrors : cache.Mirrors pool)
    (becomes : pool.Becomes next) : cache.Mirrors next := by
  constructor
  · intro id copy copied
    exact Nat.le_trans (mirrors.given id copy copied) becomes.numbers
  · intro id copy copied live
    have given := mirrors.given id copy copied
    cases before : pool.contains id with
    | false =>
      rw [becomes.contains_eq_false given before] at live
      cases live
    | true =>
      exact becomes.label?_of_contains given (mirrors.current id copy copied before) live

theorem get?_draw_cases (cache : TextureCache) (pool : Pool R) (id other : ResourceId) :
    (cache.draw pool id).get? other = cache.get? other ∨
      (other = id ∧ ∃ label, pool.label? id = some label ∧
        (cache.draw pool id).get? other = some label) := by
  unfold draw
  split
  · next label _ found =>
      by_cases same : other = id
      · subst same
        exact Or.inr ⟨rfl, label, found, List.lookup_cons_self⟩
      · exact Or.inl (Pool.lookup_cons_of_ne same)
  · exact Or.inl rfl

theorem Mirrors.draw {cache : TextureCache} {pool : Pool R} (mirrors : cache.Mirrors pool)
    (numbered : ∀ id, pool.contains id = true → id ≤ pool.lastId) (id : ResourceId) :
    (cache.draw pool id).Mirrors pool := by
  constructor
  · intro other copy copied
    rcases cache.get?_draw_cases pool id other with same | ⟨rfl, label, found, _⟩
    · exact mirrors.given other copy (same ▸ copied)
    · apply numbered
      rw [Pool.contains, Pool.label?_eq_some_iff.mp found]
      rfl
  · intro other copy copied live
    rcases cache.get?_draw_cases pool id other with same | ⟨rfl, label, found, drawn⟩
    · exact mirrors.current other copy (same ▸ copied) live
    · rw [found, ← drawn, copied]

theorem get?_prune (cache : TextureCache) (pool : Pool R) (id : ResourceId) :
    (cache.prune pool).get? id = if pool.contains id then cache.get? id else none :=
  Pool.lookup_filter_fst cache.entries pool.contains id

theorem Mirrors.prune {cache : TextureCache} {pool : Pool R} (mirrors : cache.Mirrors pool) :
    (cache.prune pool).Mirrors pool := by
  have kept : ∀ id copy, (cache.prune pool).get? id = some copy → cache.get? id = some copy := by
    intro id copy copied
    rw [get?_prune] at copied
    split at copied
    · exact copied
    · cases copied
  exact ⟨fun id copy copied => mirrors.given id copy (kept id copy copied),
    fun id copy copied => mirrors.current id copy (kept id copy copied)⟩

/-- Whoever draws a live label sees its picture. -/
theorem Mirrors.get?_draw {cache : TextureCache} {pool : Pool R} (mirrors : cache.Mirrors pool)
    {id : ResourceId} (live : pool.contains id = true) :
    (cache.draw pool id).get? id = pool.label? id := by
  unfold TextureCache.draw
  cases copied : cache.get? id with
  | some copy => exact copied.trans (mirrors.current id copy copied live).symm
  | none =>
    cases found : pool.label? id with
    | some label => exact List.lookup_cons_self
    | none => exact copied

end TextureCache

variable [Scalar R]

/-! ## Hosts -/

/-- A diagram with copies of labels that were drawn. -/
structure Host (R : Type) where
  engine : Engine R
  textures : TextureCache := {}

namespace Host

/-- What a host does: it asks something of the diagram, draws a label or drops
the copies of labels that are gone. -/
inductive Step (R : Type) where
  | operate (operation : Engine.Operation R)
  | draw (id : ResourceId)
  | prune

def apply (host : Host R) : Step R → Except Fault (Host R)
  | .operate operation => (host.engine.apply operation).map fun engine => { host with engine }
  | .draw id => .ok { host with textures := host.textures.draw host.engine.pool id }
  | .prune => .ok { host with textures := host.textures.prune host.engine.pool }

/-- The host after some steps, the first one first, unless one of them fails. -/
def run (host : Host R) (steps : List (Step R)) : Except Fault (Host R) :=
  steps.foldlM apply host

/-- A run goes on after its first step. -/
theorem run_cons {host next : Host R} {step : Step R} {rest : List (Step R)} :
    host.run (step :: rest) = .ok next ↔
      ∃ middle, host.apply step = .ok middle ∧ middle.run rest = .ok next := by
  unfold run
  rw [List.foldlM_cons]
  cases host.apply step with
  | error fault => simp [bind, Except.bind]
  | ok middle => simp [bind, Except.bind]

/-- The diagram is in custody of its resources, and the copies mirror them. -/
structure Faithful (host : Host R) : Prop where
  sound : host.engine.Sound
  mirrors : host.textures.Mirrors host.engine.pool

omit [Scalar R] in
theorem Faithful.numbered {host : Host R} (faithful : host.Faithful) :
    ∀ id, host.engine.pool.contains id = true → id ≤ host.engine.pool.lastId :=
  fun _ live => Pool.Holds.le_lastId faithful.sound.balanced live

theorem Faithful.apply {host next : Host R} (faithful : host.Faithful) {step : Step R}
    (applied : host.apply step = .ok next) :
    host.engine.pool.Becomes next.engine.pool ∧ next.Faithful := by
  cases step with
  | operate operation =>
    cases operated : host.engine.apply operation with
    | error fault =>
      rw [Host.apply, operated] at applied
      cases applied
    | ok engine =>
      rw [Host.apply, operated] at applied
      obtain rfl := Except.ok.inj applied
      have becomes := Engine.becomes_apply faithful.sound.coherent operated
      exact ⟨becomes, faithful.sound.apply operated, faithful.mirrors.becomes becomes⟩
  | draw id =>
    cases applied
    exact ⟨Pool.Becomes.refl _, faithful.sound, faithful.mirrors.draw faithful.numbered id⟩
  | prune =>
    cases applied
    exact ⟨Pool.Becomes.refl _, faithful.sound, faithful.mirrors.prune⟩

theorem Faithful.run {host next : Host R} (faithful : host.Faithful) {steps : List (Step R)}
    (ran : host.run steps = .ok next) :
    host.engine.pool.Becomes next.engine.pool ∧ next.Faithful := by
  induction steps generalizing host with
  | nil =>
    cases ran
    exact ⟨Pool.Becomes.refl _, faithful⟩
  | cons step rest ih =>
    obtain ⟨middle, applied, continued⟩ := run_cons.mp ran
    obtain ⟨first, middleFaithful⟩ := faithful.apply applied
    obtain ⟨later, nextFaithful⟩ := ih middleFaithful continued
    exact ⟨first.trans later, nextFaithful⟩

/-- However a host uses a new diagram, and wherever its run is cut in two:
between the cut and the end the pool changes by actions that give out numbers in
increasing order, all of them new at the cut; a number that is given out and
names nothing at the cut names nothing at the end; a label that is live at both
is the same; and at the end every copy of a live label is the picture in the
pool, which is also what is seen by drawing that label. -/
theorem textures_current_after_run (config : EngineConfig R) (text : TextMetrics R)
    (layouter : Layouter R) (viewport : Vec R) (earlier later : List (Step R)) {host next : Host R}
    (ran : Host.run ⟨.withLayouter config text layouter viewport, {}⟩ earlier = .ok host)
    (continued : host.run later = .ok next) :
    (∃ actions, host.engine.pool.replay actions = next.engine.pool ∧
      (host.engine.pool.given actions).Pairwise (· < ·) ∧
      ∀ id, id ∈ host.engine.pool.given actions ↔
        host.engine.pool.lastId < id ∧ id ≤ next.engine.pool.lastId) ∧
    (∀ id ≤ host.engine.pool.lastId, host.engine.pool.contains id = false →
      next.engine.pool.contains id = false) ∧
    (∀ id label, host.engine.pool.label? id = some label → next.engine.pool.contains id = true →
      next.engine.pool.label? id = some label) ∧
    ∀ id, next.engine.pool.contains id = true →
      (∀ copy, next.textures.get? id = some copy → next.engine.pool.label? id = some copy) ∧
      (next.textures.draw next.engine.pool id).get? id = next.engine.pool.label? id := by
  have start : Host.Faithful ⟨Engine.withLayouter config text layouter viewport, {}⟩ :=
    ⟨Engine.sound_withLayouter config text layouter viewport, TextureCache.mirrors_empty _⟩
  obtain ⟨_, faithful⟩ := start.run ran
  obtain ⟨becomes, nextFaithful⟩ := faithful.run continued
  refine ⟨?_, ?_, ?_, ?_⟩
  · obtain ⟨actions, replayed⟩ := becomes
    refine ⟨actions, replayed, Pool.pairwise_given _ actions, ?_⟩
    intro id
    rw [Pool.mem_given_iff, replayed]
  · intro id given gone
    exact becomes.contains_eq_false given gone
  · intro id label found live
    apply becomes.label?_of_contains (faithful.numbered id ?_) found live
    rw [Pool.contains, Pool.label?_eq_some_iff.mp found]
    rfl
  · intro id live
    exact ⟨fun copy copied => nextFaithful.mirrors.current id copy copied live,
      nextFaithful.mirrors.get?_draw live⟩

theorem textures_current_packages :
    let fill : Step Float32 := .operate (.setData Engine.packageNodes Engine.packageLinks)
    let earlier : List (Step Float32) :=
      [.operate (.setPerspective .architecture), fill, .draw 1, .draw 3]
    let later : List (Step Float32) := [.operate .clear, .draw 1, fill, .draw 6, .prune, .draw 1]
    ∃ host next, Host.run ⟨Engine.sampleStart, {}⟩ earlier = .ok host ∧
      host.run later = .ok next ∧
      (∀ id ≤ host.engine.pool.lastId, host.engine.pool.contains id = false →
        next.engine.pool.contains id = false) ∧
      ∀ id, next.engine.pool.contains id = true →
        ∀ copy, next.textures.get? id = some copy → next.engine.pool.label? id = some copy := by
  intro fill earlier later
  obtain ⟨host, ran⟩ : ∃ host, Host.run ⟨Engine.sampleStart, {}⟩ earlier = .ok host := ⟨_, rfl⟩
  obtain ⟨next, continued⟩ : ∃ next, host.run later = .ok next := ⟨_, rfl⟩
  obtain ⟨_, gone, _, current⟩ := textures_current_after_run .standard _ _ _ _ _ ran continued
  exact ⟨host, next, ran, continued, gone, fun id live => (current id live).1⟩

end Host

/-! ## The viewer -/

namespace Viewer

/-- A frame of the viewer draws its labels in order and then drops what is gone,
as a host does. -/
theorem run_of_upload {viewer next : Viewer R} {uploads : LabelBitmap → Bool} {frame : Frame R}
    (uploaded : viewer.upload uploads frame = .ok next) :
    Host.run ⟨viewer.engine, viewer.textures⟩ (frame.labels.map .draw ++ [.prune]) =
      .ok ⟨next.engine, next.textures⟩ := by
  have drawn : ∀ (ids : List ResourceId) (cache : TextureCache),
      Host.run ⟨viewer.engine, cache⟩ (ids.map .draw ++ [.prune]) =
        .ok ⟨viewer.engine, (cache.drawAll viewer.engine.pool ids).prune viewer.engine.pool⟩ := by
    intro ids
    induction ids with
    | nil => exact fun cache => rfl
    | cons id rest ih =>
      intro cache
      exact Host.run_cons.mpr ⟨_, rfl, ih (cache.draw viewer.engine.pool id)⟩
  unfold upload at uploaded
  dsimp only at uploaded
  split at uploaded
  · cases uploaded
    exact drawn frame.labels viewer.textures
  · cases uploaded

end Viewer

end CodeAtlas
