import CodeAtlas.Hit
import CodeAtlas.Proofs.Exact
import CodeAtlas.Proofs.Number.Single
import Mathlib.Data.List.Induction

/-!
# What a ray meets first

A ray keeps the best region so far while it goes through the regions in drawing
order.  In the end it has the last of those that it meets first, as long as
distances can be compared.
-/

namespace CodeAtlas

variable {R : Type} [Scalar R] {regions : List (HitRegion R)} {ray : Ray R} {region : HitRegion R}

/-- Distances can be compared, whatever else the scalars hold. -/
structure Scalar.Compares (R : Type) [Scalar R] : Prop where
  trans : ∀ {a b c : R}, a ≤ b → b ≤ c → a ≤ c
  total : ∀ {a b : R}, 0.0 ≤ a → 0.0 ≤ b → a ≤ b ∨ b ≤ a

theorem Exact.compares [Approximations] : Scalar.Compares ℚ :=
  ⟨le_trans, fun _ _ => le_total _ _⟩

theorem Single.compares : Scalar.Compares Float32 :=
  ⟨Single.le_trans, Single.le_total_of_le⟩

namespace HitTester

theorem reach_eq_some_iff {distance : R} :
    reach ray region = some distance ↔
      ray.distanceToPlane region.elevation = some distance ∧
        region.shape.contains ray.origin = true := by
  unfold reach
  cases ray.distanceToPlane region.elevation with
  | none => simp
  | some way =>
    by_cases covers : region.shape.contains ray.origin = true
    · simp [covers]
    · simp [covers]

theorem nonneg_of_reach {distance : R}
    (met : reach ray region = some distance) : 0.0 ≤ distance := by
  have way := (reach_eq_some_iff.mp met).1
  unfold Ray.distanceToPlane at way
  dsimp only at way
  split at way
  · next above =>
      cases way
      exact above
  · cases way

/-- The region is the last of those that the ray meets first. -/
structure OnTop (ray : Ray R) (regions : List (HitRegion R)) (best : R × HitRegion R) : Prop where
  met : reach ray best.2 = some best.1
  split : ∃ before after, regions = before ++ best.2 :: after ∧
    (∀ region ∈ before, ∀ distance, reach ray region = some distance → best.1 ≤ distance) ∧
    ∀ region ∈ after, ∀ distance, reach ray region = some distance → ¬ distance ≤ best.1

/-- What the ray has found among the regions so far. -/
def Found (ray : Ray R) (regions : List (HitRegion R)) : Option (R × HitRegion R) → Prop
  | none => ∀ region ∈ regions, reach ray region = none
  | some best => OnTop ray regions best

theorem OnTop.le_of_reach {best : R × HitRegion R} (onTop : OnTop ray regions best)
    (compares : Scalar.Compares R) (mem : region ∈ regions) {distance : R}
    (met : reach ray region = some distance) :
    best.1 ≤ distance := by
  obtain ⟨before, after, rfl, earlier, later⟩ := onTop.split
  have own := nonneg_of_reach onTop.met
  have other := nonneg_of_reach met
  rcases List.mem_append.mp mem with inBefore | inRest
  · exact earlier region inBefore distance met
  · rcases List.mem_cons.mp inRest with rfl | inAfter
    · obtain rfl := Option.some.inj (onTop.met.symm.trans met)
      exact (compares.total own own).elim id id
    · exact (compares.total own other).resolve_right (later region inAfter distance met)

theorem OnTop.concat {best : R × HitRegion R} (onTop : OnTop ray regions best)
    (behind : ∀ distance, reach ray region = some distance → ¬ distance ≤ best.1) :
    OnTop ray (regions ++ [region]) best := by
  obtain ⟨before, after, rfl, earlier, later⟩ := onTop.split
  refine ⟨onTop.met, before, after ++ [region], by simp, earlier, ?_⟩
  intro other mem distance met
  rcases List.mem_append.mp mem with inAfter | isLast
  · exact later other inAfter distance met
  · obtain rfl := List.mem_singleton.mp isLast
    exact behind distance met

/-- One more region: the best so far stays, or the region takes its place. -/
theorem Found.closer {best : Option (R × HitRegion R)} (found : Found ray regions best)
    (compares : Scalar.Compares R) (region : HitRegion R) :
    Found ray (regions ++ [region]) (closer ray best region) := by
  unfold HitTester.closer
  cases met : reach ray region with
  | none =>
    cases best with
    | none =>
      intro other mem
      rcases List.mem_append.mp mem with old | isLast
      · exact found other old
      · rwa [List.mem_singleton.mp isLast]
    | some best => exact OnTop.concat found (by simp [met])
  | some distance =>
    cases best with
    | none =>
      refine ⟨met, regions, [], rfl, ?_, by simp⟩
      intro other mem way otherMet
      rw [found other mem] at otherMet
      cases otherMet
    | some best =>
      dsimp only
      split
      · next nearer =>
          -- At the same distance too, what is drawn later takes the place.
          refine ⟨met, regions, [], rfl, ?_, by simp⟩
          intro other mem way otherMet
          exact compares.trans nearer (OnTop.le_of_reach found compares mem otherMet)
      · next farther =>
          apply OnTop.concat found
          intro way otherMet
          obtain rfl := Option.some.inj (met.symm.trans otherMet)
          exact farther

/-- What the ray has found once it went through all regions. -/
theorem found_foldl (compares : Scalar.Compares R) (ray : Ray R) (regions : List (HitRegion R)) :
    Found ray regions (regions.foldl (closer ray) none) := by
  induction regions using List.reverseRecOn with
  | nil => simp [Found]
  | append_singleton regions region ih =>
    rw [List.foldl_append]
    exact ih.closer compares region

/-! ## The answer of a ray -/

omit [Scalar R] in
theorem mem_of_split {regions before after : List (HitRegion R)}
    (split : regions = before ++ region :: after) : region ∈ regions :=
  split ▸ List.mem_append_right _ List.mem_cons_self

/-- Of two regions that are both last among the first ones, neither comes behind
the other. -/
theorem OnTop.eq_of_ahead {best other : R × HitRegion R} (onTop : OnTop ray regions best)
    (also : OnTop ray regions other) (compares : Scalar.Compares R) (mem : best.2 ∈ regions)
    {after between rest : List (HitRegion R)}
    (later : ∀ region ∈ after, ∀ distance, reach ray region = some distance → ¬ distance ≤ best.1)
    (ahead : best.2 :: after = between ++ other.2 :: rest) : other = best := by
  have otherMet := also.met
  cases between with
  | nil =>
    rcases List.cons.inj ahead with ⟨same, _⟩
    rw [← same, onTop.met] at otherMet
    exact Prod.ext (Option.some.inj otherMet).symm same.symm
  | cons _ more =>
    rcases List.cons.inj ahead with ⟨_, tail⟩
    have noFarther := also.le_of_reach compares mem onTop.met
    exact absurd noFarther (later other.2 (mem_of_split tail) other.1 otherMet)

theorem OnTop.unique {best other : R × HitRegion R} (onTop : OnTop ray regions best)
    (also : OnTop ray regions other) (compares : Scalar.Compares R) : other = best := by
  rcases onTop.split with ⟨before, after, split, _, later⟩
  rcases also.split with ⟨otherBefore, otherAfter, otherSplit, _, otherLater⟩
  rcases List.append_eq_append_iff.mp (split.symm.trans otherSplit) with
    ⟨between, _, ahead⟩ | ⟨between, _, ahead⟩
  · exact onTop.eq_of_ahead also compares (mem_of_split split) later ahead
  · exact (also.eq_of_ahead onTop compares (mem_of_split otherSplit) otherLater ahead).symm

theorem cast_eq_none_iff (compares : Scalar.Compares R) {tester : HitTester R} :
    tester.cast ray = none ↔ ∀ region ∈ tester.regions, reach ray region = none := by
  have found := found_foldl compares ray tester.regions
  rw [cast, Option.map_eq_none_iff]
  cases best_eq : tester.regions.foldl (closer ray) none with
  | none =>
    rw [best_eq] at found
    exact iff_of_true rfl found
  | some best =>
    rw [best_eq] at found
    obtain ⟨before, after, split, _⟩ := found.split
    refine iff_of_false nofun ?_
    intro missed
    have met := found.met
    rw [missed best.2 (mem_of_split split)] at met
    cases met

theorem cast_eq_some_iff (compares : Scalar.Compares R) {tester : HitTester R} {hit : Hit R} :
    tester.cast ray = some hit ↔
      ∃ best, OnTop ray tester.regions best ∧ hit = ⟨best.2.role, ray.origin, best.1⟩ := by
  have found := found_foldl compares ray tester.regions
  rw [cast, Option.map_eq_some_iff]
  constructor
  · rintro ⟨best, best_eq, rfl⟩
    rw [best_eq] at found
    exact ⟨best, found, rfl⟩
  · rintro ⟨best, onTop, rfl⟩
    cases best_eq : tester.regions.foldl (closer ray) none with
    | none =>
      rw [best_eq] at found
      rcases onTop.split with ⟨before, after, split, _⟩
      have missed := found best.2 (mem_of_split split)
      rw [onTop.met] at missed
      cases missed
    | some other =>
      rw [best_eq] at found
      exact ⟨best, congrArg some (onTop.unique found compares), rfl⟩

/-- The ray meets the region so far down: the plane of the region is not above the
start, and the shape covers the origin. -/
def Meets (ray : Ray R) (region : HitRegion R) (distance : R) : Prop :=
  ray.distanceToPlane region.elevation = some distance ∧ region.shape.contains ray.origin = true

/-- **The nearest region wins, and of equally near ones the last.**  In single
precision, with whatever numbers and non-numbers among the regions and in the ray:
a ray hits nothing exactly if it meets no region.  Else it hits the last region
among those that it meets at the least distance, with the role and the distance
of that region. -/
theorem cast_nearest_last (tester : HitTester Float32) (ray : Ray Float32) :
    (tester.cast ray = none ↔
      ¬ ∃ region ∈ tester.regions, ∃ distance, Meets ray region distance) ∧
    ∀ hit, tester.cast ray = some hit ↔
      ∃ before region after, tester.regions = before ++ region :: after ∧
        Meets ray region hit.distance ∧ hit.role = region.role ∧ hit.point = ray.origin ∧
        (∀ other ∈ tester.regions, ∀ distance, Meets ray other distance →
          hit.distance ≤ distance) ∧
        ∀ later ∈ after, ∀ distance, Meets ray later distance → ¬ distance ≤ hit.distance := by
  simp only [Meets, ← reach_eq_some_iff]
  constructor
  · rw [cast_eq_none_iff Single.compares]
    simp only [not_exists, not_and, Option.eq_none_iff_forall_not_mem]
    rfl
  · intro hit
    rw [cast_eq_some_iff Single.compares]
    constructor
    · rintro ⟨best, onTop, rfl⟩
      rcases onTop.split with ⟨before, after, split, _, later⟩
      exact ⟨before, best.2, after, split, onTop.met, rfl, rfl,
        fun other mem distance met => onTop.le_of_reach Single.compares mem met, later⟩
    · rintro ⟨before, region, after, split, met, role, point, least, later⟩
      refine ⟨(hit.distance, region), ⟨met, before, after, split, ?_, later⟩, ?_⟩
      · intro other mem distance otherMet
        exact least other (split ▸ List.mem_append_left _ mem) distance otherMet
      · rw [← role, ← point]

/-! ## Exact heights -/

section Exact

variable [Approximations]

theorem reach_straightDown_iff {point : Vec ℚ} {region : HitRegion ℚ} {distance : ℚ} :
    reach (.straightDown point) region = some distance ↔
      region.elevation ≤ 1000 ∧ distance = 1000 - region.elevation ∧
        region.shape.contains point = true := by
  have height : (1000.0 : ℚ) = 1000 := by norm_num
  rw [reach_eq_some_iff]
  simp only [Ray.straightDown, Ray.distanceToPlane, height, Exact.zero_eq, sub_nonneg]
  by_cases below : region.elevation ≤ 1000
  · simp only [below, if_true, Option.some.injEq, true_and]
    exact and_congr_left' eq_comm
  · simp [below]

/-- A region that is higher than all others at a point, but for those of its own
role, is what is picked there. -/
theorem role_hitTest_of_highest {tester : HitTester ℚ} {point : Vec ℚ} {region : HitRegion ℚ}
    (mem : region ∈ tester.regions) (covers : region.shape.contains point = true)
    (below : region.elevation ≤ 1000)
    (highest : ∀ other ∈ tester.regions, other.shape.contains point = true →
      region.elevation ≤ other.elevation → other.role = region.role) :
    (tester.hitTest point).map Hit.role = some region.role := by
  have met : reach (.straightDown point) region = some (1000 - region.elevation) :=
    reach_straightDown_iff.mpr ⟨below, rfl, covers⟩
  have found := found_foldl Exact.compares (.straightDown point) tester.regions
  unfold hitTest cast
  cases best_eq : tester.regions.foldl (closer (.straightDown point)) none with
  | none =>
    rw [best_eq] at found
    have missed := found region mem
    rw [met] at missed
    cases missed
  | some best =>
    rw [best_eq] at found
    obtain ⟨_, distance, covered⟩ := reach_straightDown_iff.mp found.met
    have nearest := found.le_of_reach Exact.compares mem met
    have listed : best.2 ∈ tester.regions := by
      obtain ⟨before, after, split, _⟩ := found.split
      rw [split]
      exact List.mem_append_right _ List.mem_cons_self
    have role := highest best.2 listed covered (by linarith)
    exact congrArg some role

end Exact

end HitTester

end CodeAtlas
