import CodeAtlas.Config.Basic

/-!
# Reading settings

Every setting may be left out and then has its standard value.
-/

namespace CodeAtlas

open Json (Schema Decoder)

/-- Reads a path. -/
def PathName.decoder : Decoder PathName :=
  (Decoder.stringAs "path string").map PathName.mk

def LayoutSettings.schema : Schema (LayoutSettings Float32) where
  title := "struct LayoutSettings"
  start := .standard
  fields := [
    .defaulted "horizontal_gap" .single fun value all => { all with horizontalGap := value },
    .defaulted "vertical_gap" .single fun value all => { all with verticalGap := value }]

def NodeMetrics.schema : Schema (NodeMetrics Float32) where
  title := "struct NodeMetrics"
  start := .standard
  fields := [
    .defaulted "header_height" .single fun value all => { all with headerHeight := value },
    .defaulted "row_height" .single fun value all => { all with rowHeight := value },
    .defaulted "padding_x" .single fun value all => { all with paddingX := value },
    .defaulted "bottom_padding" .single fun value all => { all with bottomPadding := value },
    .defaulted "min_width" .single fun value all => { all with minWidth := value },
    .defaulted "corner_radius" .single fun value all => { all with cornerRadius := value },
    .defaulted "corner_segments" .count fun value all => { all with cornerSegments := value },
    .defaulted "standalone_height" .single fun value all => { all with standaloneHeight := value },
    .defaulted "icon_width" .single fun value all => { all with iconWidth := value }]

def TextSettings.schema : Schema (TextSettings Float32) where
  title := "struct TextSettings"
  start := .standard
  fields := [
    .defaulted "font_size" .single fun value all => { all with fontSize := value },
    .defaulted "font_path" (.optional PathName.decoder) fun value all =>
      { all with fontPath := value }]

def CameraSettings.schema : Schema (CameraSettings Float32) where
  title := "struct CameraSettings"
  start := .standard
  fields := [
    .defaulted "zoom_step" .single fun value all => { all with zoomStep := value },
    .defaulted "min_extent" .single fun value all => { all with minExtent := value },
    .defaulted "max_extent" .single fun value all => { all with maxExtent := value },
    .defaulted "fit_margin" .single fun value all => { all with fitMargin := value },
    .defaulted "initial_extent" .single fun value all => { all with initialExtent := value }]

def InteractionSettings.schema : Schema (InteractionSettings Float32) where
  title := "struct InteractionSettings"
  start := .standard
  fields := [
    .defaulted "drag_threshold" .single fun value all => { all with dragThreshold := value },
    .defaulted "hit_overlay_half_width" .single fun value all =>
      { all with hitHalfWidth := value }]

def SequenceSettings.schema : Schema (SequenceSettings Float32) where
  title := "struct SequenceSettings"
  start := .standard
  fields := [
    .defaulted "lane_width" .single fun value all => { all with laneWidth := value },
    .defaulted "lane_gap" .single fun value all => { all with laneGap := value },
    .defaulted "header_height" .single fun value all => { all with headerHeight := value },
    .defaulted "row_height" .single fun value all => { all with rowHeight := value },
    .defaulted "self_loop_width" .single fun value all => { all with selfLoopWidth := value },
    .defaulted "self_loop_height" .single fun value all => { all with selfLoopHeight := value },
    .defaulted "arrow_length" .single fun value all => { all with arrowLength := value },
    .defaulted "arrow_width" .single fun value all => { all with arrowWidth := value }]

namespace EngineConfig

def schema : Schema (EngineConfig Float32) where
  title := "struct EngineConfig"
  start := .standard
  fields := [
    .defaulted "layout" LayoutSettings.schema.decoder fun value all =>
      { all with layout := value },
    .defaulted "node" NodeMetrics.schema.decoder fun value all => { all with node := value },
    .defaulted "text" TextSettings.schema.decoder fun value all => { all with text := value },
    .defaulted "camera" CameraSettings.schema.decoder fun value all =>
      { all with camera := value },
    .defaulted "interaction" InteractionSettings.schema.decoder fun value all =>
      { all with interaction := value },
    .defaulted "sequence" SequenceSettings.schema.decoder fun value all =>
      { all with sequence := value },
    .defaulted "members" Toggles.schema.decoder fun value all => { all with members := value }]

/-- Reads settings from a text. -/
def ofText (text : String) : Except Json.Error (EngineConfig Float32) :=
  schema.decoder.run (Text.Piece.ofString text)

end EngineConfig

end CodeAtlas
