import CodeAtlas.Label.Face
import CodeAtlas.Main
import CodeAtlas.Report.Viewer
import CodeAtlas.Proofs.Registry.Inventory
import CodeAtlas.Proofs.Textures
import CodeAtlas.Proofs.Engine.Drag
import CodeAtlas.Proofs.Engine.RoundTrip
import CodeAtlas.Proofs.Engine.Answers
import CodeAtlas.Proofs.Engine.Picking
import CodeAtlas.Proofs.Viewer.Memory
import CodeAtlas.Proofs.Layout.Compact
import CodeAtlas.Proofs.CallOrder
import CodeAtlas.Proofs.Engine.Undo
import CodeAtlas.Proofs.Registry.Isolation
import CodeAtlas.Proofs.Registry.FirstSight
import CodeAtlas.Proofs.Registry.Shuffle
import CodeAtlas.Proofs.Recolouring
import CodeAtlas.Proofs.Regions
import CodeAtlas.Proofs.Engine.Framing
import CodeAtlas.Proofs.Raster.Fill
import CodeAtlas.Proofs.Raster.Pen
import CodeAtlas.Proofs.Viewer.Settings
import CodeAtlas.Proofs.Viewer.Recent
import CodeAtlas.Proofs.Layout.Ignored
import CodeAtlas.Proofs.Labels
import CodeAtlas.Proofs.Engine.Wheel
