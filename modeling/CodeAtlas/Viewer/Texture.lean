import CodeAtlas.Pool

/-!
# Textures

A host keeps copies of label pictures by the numbers of their labels.  A copy is
made the first time its label is drawn and is never refreshed.
-/

namespace CodeAtlas

/-- The pictures that have been uploaded. -/
structure TextureCache where
  entries : List (ResourceId × LabelBitmap) := []

namespace TextureCache

variable {R : Type}

/-- The copy under a number. -/
def get? (cache : TextureCache) (id : ResourceId) : Option LabelBitmap :=
  cache.entries.lookup id

def ids (cache : TextureCache) : List ResourceId :=
  cache.entries.map Prod.fst

/-- Draws a label, which uploads its picture unless there is a copy. -/
def draw (cache : TextureCache) (pool : Pool R) (id : ResourceId) : TextureCache :=
  match cache.get? id, pool.label? id with
  | none, some label => ⟨(id, label) :: cache.entries⟩
  | _, _ => cache

/-- Draws labels one after the other. -/
def drawAll (cache : TextureCache) (pool : Pool R) (ids : List ResourceId) : TextureCache :=
  ids.foldl (fun cache id => cache.draw pool id) cache

/-- Drops the copies whose labels are gone. -/
def prune (cache : TextureCache) (pool : Pool R) : TextureCache :=
  ⟨pool.keepLive cache.entries⟩

end TextureCache

end CodeAtlas
