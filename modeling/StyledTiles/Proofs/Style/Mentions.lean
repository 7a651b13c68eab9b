import StyledTiles.Proofs.Filter.Mentions
import StyledTiles.Proofs.Style.Deciding
import StyledTiles.Proofs.Style.Grouping

/-!
# What a style looks at

A style decides about a feature by the filters of the layers that are drawn. Where these filters do not
look at the zoom, the zoom matters only to which layers are drawn: at two zooms at which the same layers
are, the decision is the same, and so is the number of layers that were in doubt before it.
-/
namespace StyledTiles

/-- A filter decides the same about features that agree in what it mentions, at every zoom if it does
not look at the zoom. So a style whose filters do not look at it decides the same at all zooms at which
it draws the same layers. -/
theorem decisions_hang_on_what_is_mentioned :
    (∀ (a : Filter) (f f' : Feature) (z : Zoom), Feature.AgreeIn a.mentions f f' →
      a.eval f z = a.eval f' z) ∧
    (∀ (a : Filter) (f f' : Feature) (z z' : Zoom), Feature.AgreeIn a.mentions f f' →
      a.IgnoresZoom f → a.eval f z = a.eval f' z') ∧
    ∀ (s : Style) (name : String) (f : Feature) (z z' : Zoom),
      (∀ l ∈ s.layersFor name, ∀ a, l.filter = some a → a.IgnoresZoom f) →
      (∀ l ∈ s.layersFor name, l.isDrawn z = l.isDrawn z') →
      s.evaluate name z f = s.evaluate name z' f := by
  refine ⟨fun a f f' z h => ?_, fun a f f' z z' h hzoom => ?_, ?_⟩
  · exact a.eval_alike (h.alikeIn (.inl rfl))
  · exact a.eval_alike (h.alikeIn (.inr hzoom))
  · intro s name f z z' hignores hdrawn
    refine Style.decideFrom_congr (fun l hl => ?_) 0
    refine Layer.answer_congr (hdrawn l hl) fun a ha => ?_
    exact a.eval_alike ((Feature.AgreeIn.refl _ f).alikeIn (.inr (hignores l hl a ha)))

/-! ## A lake that carries a zoom of its own -/

/-- A named polygon that does not call itself far. -/
def isNearby : Filter := .combine .all [
  .present false "name", .compare false (.get Feature.typeKey) (.string "Polygon"),
  .compare true (.get zoomKey) (.string "far")]

def nearLake : Feature :=
  { geometry := .polygon, properties := [("name", .null), (zoomKey, .str "near")] }

/-- The lake with a depth and an identifier, which the filter does not mention. -/
def soundedNearLake : Feature :=
  { geometry := .polygon
    properties := [("depth", .int 7), ("name", .str "Como"), (zoomKey, .str "near")]
    id := .int 5 }

def shownLayer : Layer :=
  { sourceLayer := "water", maxzoom := some (.int 9), filter := some isNearby }

def hiddenLayer : Layer := { sourceLayer := "water", visibility := some "none" }

def nearbyWater : Style := .ofLayers [shownLayer, hiddenLayer]

theorem nearLake_agrees : Feature.AgreeIn isNearby.mentions nearLake soundedNearLake where
  value name hm htype _ := by
    have hname : name = Feature.typeKey ∨ name = zoomKey := by
      simpa [isNearby, Filter.mentions, Filter.mentionsOfAll, Expression.mentions] using hm
    obtain rfl := hname.resolve_left htype
    rfl
  presence name hm _ _ := by
    obtain rfl : name = "name" := by
      simpa [isNearby, Filter.mentions, Filter.mentionsOfAll, Expression.mentions] using hm
    rfl
  geometry _ := rfl
  id hm := by
    refine absurd hm ?_
    decide

theorem nearby_at_either_zoom :
    Feature.AgreeIn isNearby.mentions nearLake soundedNearLake ∧ isNearby.IgnoresZoom nearLake ∧
    isNearby.eval nearLake (.int 3) = isNearby.eval soundedNearLake (.int 3) ∧
    isNearby.eval nearLake (.int 3) = isNearby.eval soundedNearLake (.int 8) ∧
    nearbyWater.evaluate "water" (.int 3) nearLake =
      nearbyWater.evaluate "water" (.int 8) nearLake := by
  have ignores : isNearby.IgnoresZoom nearLake := ⟨by decide, .inr (.str "near")⟩
  have layers : nearbyWater.layersFor "water" = [shownLayer, hiddenLayer] := rfl
  obtain ⟨sameZoom, anyZoom, style⟩ := decisions_hang_on_what_is_mentioned
  refine ⟨nearLake_agrees, ignores, sameZoom _ _ _ _ nearLake_agrees,
    anyZoom _ _ _ _ _ nearLake_agrees ignores, style _ _ _ _ _ ?_ ?_⟩
  · simpa [layers, shownLayer, hiddenLayer] using ignores
  · rw [layers]
    decide +kernel

end StyledTiles
