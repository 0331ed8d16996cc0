import CodeAtlas.Proofs.Json.Documents
import CodeAtlas.Viewer.Settings

/-!
# Settings that are kept

Settings that are saved and loaded again are what they were, as long as their
numbers are finite.  A number that is not is saved as `null`, which no number
reads, and one field that cannot be read gives up all the others.
-/

namespace CodeAtlas

open CodeAtlas.Json
open CodeAtlas.Text (Piece)

variable {depth rounds : ℕ}

theorem Perspective.reads_name (room : Room) (level : ℕ) (perspective : Perspective) :
    Perspective.decoder.Reads room ((Document.string perspective.name).indented level)
      perspective := by
  cases perspective <;> exact Variant.reads_bare rfl room level

theorem PathName.reads_text (room : Room) (level : ℕ) (path : PathName) :
    PathName.decoder.Reads room ((Document.string path.text).indented level) path :=
  (Decoder.reads_stringAs "path string" room level path.text).map PathName.mk

theorem Toggles.reads_toggles (enough : 4 < rounds) (level : ℕ) (toggles : Toggles) :
    Toggles.schema.decoder.Reads ⟨depth + 1, rounds⟩
      ((Document.record [("show_public", .boolean toggles.showPublic),
        ("show_private", .boolean toggles.showPrivate),
        ("show_constructors", .boolean toggles.showConstructors),
        ("show_arguments", .boolean toggles.showArguments)]).indented level) toggles := by
  have reads := Decoder.reads_boolean ⟨depth, rounds⟩ (level + 1)
  refine Schema.reads_record ?_ (by simp) (by simp [schema, schemaOver, Field.defaulted]) enough
  exact .entry ⟨_, _, rfl⟩ (reads _) (.entry ⟨_, _, rfl⟩ (reads _)
    (.entry ⟨_, _, rfl⟩ (reads _) (.entry ⟨_, _, rfl⟩ (reads _) (.done _))))

namespace ViewerSettings

theorem reads_pathDocument (room : Room) (level : ℕ) (path : Option PathName) :
    (Decoder.optional PathName.decoder).Reads room ((pathDocument path).indented level) path := by
  cases path with
  | none => exact Decoder.optional_reads_null _ room level
  | some path => exact (path.reads_text room level).optional (opens_string path.text level)

theorem reads_recentPayloads {paths : List PathName} (enough : paths.length < rounds) (level : ℕ) :
    (Decoder.list PathName.decoder).Reads ⟨depth + 1, rounds⟩
      ((Document.list (paths.map fun path => .string path.text)).indented level) paths :=
  Decoder.reads_list
    (fun path _ => ⟨path.reads_text _ _, opens_string path.text _⟩) enough

section

variable (settings : ViewerSettings Float32) (enough : 8 < rounds)
include enough

theorem reads_saved (enoughRecent : settings.recentPayloads.length < rounds)
    (scale : Decoder.single.Reads ⟨depth + 1, rounds⟩
      ((Document.single settings.uiScale).indented 1) settings.uiScale)
    (width : Decoder.single.Reads ⟨depth + 1, rounds⟩
      ((Document.single settings.sidePanelWidth).indented 1) settings.sidePanelWidth) :
    schema.decoder.Reads ⟨depth + 2, rounds⟩ settings.saved settings := by
  refine Schema.reads_record ?_ (by simp) (by simp [schema, Field.defaulted]) enough
  exact .entry ⟨_, _, rfl⟩ (settings.perspective.reads_name _ 1)
    (.entry ⟨_, _, rfl⟩ (settings.members.reads_toggles (by omega) 1)
    (.entry ⟨_, _, rfl⟩ scale
    (.entry ⟨_, _, rfl⟩ (Decoder.reads_boolean _ 1 settings.showSourcePanel)
    (.entry ⟨_, _, rfl⟩ width
    (.entry ⟨_, _, rfl⟩ (reads_pathDocument _ 1 settings.lastPayload)
    (.entry ⟨_, _, rfl⟩ (reads_pathDocument _ 1 settings.engineConfig)
    (.entry ⟨_, _, rfl⟩ (reads_recentPayloads enoughRecent 1) (.done _))))))))

/-- A scale that is refused gives up all settings. -/
theorem refuses_saved_of_scale (scale : Decoder.single.Refuses ⟨depth + 1, rounds⟩
      ((Document.single settings.uiScale).indented 1)) :
    schema.decoder.Refuses ⟨depth + 2, rounds⟩ settings.saved := by
  apply Schema.refuses_record
  exact .later ⟨_, _, rfl⟩ (settings.perspective.reads_name _ 1)
    (.later ⟨_, _, rfl⟩ (settings.members.reads_toggles (by omega) 1)
    (.here ⟨_, _, rfl⟩ scale))

/-- So does a width that is refused. -/
theorem refuses_saved_of_width (scale : Decoder.single.Reads ⟨depth + 1, rounds⟩
      ((Document.single settings.uiScale).indented 1) settings.uiScale)
    (width : Decoder.single.Refuses ⟨depth + 1, rounds⟩
      ((Document.single settings.sidePanelWidth).indented 1)) :
    schema.decoder.Refuses ⟨depth + 2, rounds⟩ settings.saved := by
  apply Schema.refuses_record
  exact .later ⟨_, _, rfl⟩ (settings.perspective.reads_name _ 1)
    (.later ⟨_, _, rfl⟩ (settings.members.reads_toggles (by omega) 1)
    (.later ⟨_, _, rfl⟩ scale
    (.later ⟨_, _, rfl⟩ (Decoder.reads_boolean _ 1 settings.showSourcePanel)
    (.here ⟨_, _, rfl⟩ width))))

end

/-- The saved text is long enough for the loops that read it. -/
theorem length_saved (settings : ViewerSettings Float32) :
    8 < (Piece.ofString settings.saved).length ∧
      settings.recentPayloads.length < (Piece.ofString settings.saved).length := by
  have isRecord : ∃ entries, settings.document = .record entries ∧ entries.length = 8 ∧
      ("recent_payloads",
        Document.list (settings.recentPayloads.map fun path => .string path.text)) ∈ entries :=
    ⟨_, rfl, rfl, by simp⟩
  rcases isRecord with ⟨entries, isRecord, eight, recent⟩
  have fields := Document.length_lt_record 0 entries
  have value := Document.length_value_lt_record 0 recent
  have items := Document.length_lt_list (0 + 1)
    (settings.recentPayloads.map fun path => .string path.text)
  rw [List.length_map] at items
  rw [saved, Document.pretty, isRecord]
  omega

theorem finite_standard :
    (standard : ViewerSettings Float32).uiScale.isFinite = true ∧
      (standard : ViewerSettings Float32).sidePanelWidth.isFinite = true := by
  decide +kernel

/-- A text has no bytes that belong to no character. -/
theorem load_ofString (text : String) :
    load (some (Piece.ofString text)) =
      match schema.decoder.run (Piece.ofString text) with
      | .ok settings => settings
      | .error _ => standard := by
  have whole : (Piece.ofString text).any Piece.isStray = false := by
    simp [Piece.ofString, Piece.isStray]
  unfold load
  rw [Option.filter_some, whole, Bool.not_false, if_pos rfl, Option.map_some]
  cases schema.decoder.run (Piece.ofString text) <;> rfl

theorem load_eq_of_reads {text : String} {settings : ViewerSettings Float32}
    (reads : schema.decoder.Reads ⟨127, (Piece.ofString text).length + 1⟩ text settings) :
    load (some (Piece.ofString text)) = settings := by
  rw [load_ofString, Decoder.run_of_reads reads]

theorem load_eq_standard_of_refuses {text : String}
    (refuses : schema.decoder.Refuses ⟨127, (Piece.ofString text).length + 1⟩ text) :
    load (some (Piece.ofString text)) = standard := by
  rcases Decoder.run_of_refuses refuses with ⟨error, refused⟩
  rw [load_ofString, refused]

/-- Settings whose numbers are finite are loaded as they were saved.  Settings
with another number are lost: the standard ones are loaded in their place. -/
theorem load_saved (settings : ViewerSettings Float32)
    (scaleBack : settings.uiScale.isFinite = true → Decoder.ReadsBack settings.uiScale)
    (widthBack : settings.sidePanelWidth.isFinite = true →
      Decoder.ReadsBack settings.sidePanelWidth) :
    load (some (Piece.ofString settings.saved)) =
        (if settings.uiScale.isFinite ∧ settings.sidePanelWidth.isFinite then settings
          else standard) ∧
      (load (some (Piece.ofString settings.saved)) = settings ↔
        settings.uiScale.isFinite ∧ settings.sidePanelWidth.isFinite) := by
  rcases settings.length_saved with ⟨entries, recent⟩
  have loaded : load (some (Piece.ofString settings.saved)) =
      if settings.uiScale.isFinite ∧ settings.sidePanelWidth.isFinite then settings
        else standard := by
    by_cases scale : settings.uiScale.isFinite = true
    · have scaleReads := fun room => Decoder.reads_single scale (scaleBack scale) room 1
      by_cases width : settings.sidePanelWidth.isFinite = true
      · rw [if_pos ⟨scale, width⟩]
        exact load_eq_of_reads (settings.reads_saved (by omega) (by omega) (scaleReads _)
          (Decoder.reads_single width (widthBack width) _ 1))
      · rw [if_neg fun finite => width finite.2]
        exact load_eq_standard_of_refuses (settings.refuses_saved_of_width (by omega)
          (scaleReads _) (Decoder.single_refuses (by simpa using width) _ 1))
    · rw [if_neg fun finite => scale finite.1]
      exact load_eq_standard_of_refuses (settings.refuses_saved_of_scale (by omega)
        (Decoder.single_refuses (by simpa using scale) _ 1))
  refine ⟨loaded, ?_⟩
  rw [loaded]
  split_ifs with finite
  · exact iff_of_true rfl finite
  · -- The standard settings are finite, so they are not the ones that were lost.
    refine iff_of_false (fun isStandard => finite ?_) finite
    rw [← isStandard]
    exact finite_standard

/-- A scale beyond single precision is read as infinite, and saving it loses the
perspective too.  Settings with a scale of one tenth are kept. -/
theorem load_saved_of_files :
    let infinite := load (some (Piece.ofString
      "\x7b\"perspective\": \"architecture\", \"ui_scale\": 1e39\x7d"))
    let finite := load (some (Piece.ofString
      "\x7b\"ui_scale\": 0.1, \"recent_payloads\": [\"a\\tb\", \"c\"]\x7d"))
    infinite.perspective = .architecture ∧ infinite.uiScale.isFinite = false ∧
      load (some (Piece.ofString infinite.saved)) = standard ∧
      load (some (Piece.ofString infinite.saved)) ≠ infinite ∧
      finite.recentPayloads = [⟨"a\tb"⟩, ⟨"c"⟩] ∧
      load (some (Piece.ofString finite.saved)) = finite := by
  intro infinite finite
  have notFinite : infinite.uiScale.isFinite = false := by decide +kernel
  have isFinite : finite.uiScale.isFinite = true ∧ finite.sidePanelWidth.isFinite = true := by
    decide +kernel
  have lost := load_saved infinite (fun isFinite => by simp [notFinite] at isFinite)
    (fun _ => by decide +kernel)
  have kept := load_saved finite (fun _ => by decide +kernel) (fun _ => by decide +kernel)
  refine ⟨by decide +kernel, notFinite, ?_, ?_, by decide +kernel, kept.2.mpr isFinite⟩
  · simpa [notFinite] using lost.1
  · simpa [notFinite] using lost.2

end ViewerSettings

end CodeAtlas
