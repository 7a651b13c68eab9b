import StyledTiles.Proofs.Style.Looser
import StyledTiles.Proofs.Tile.Within

/-!
# Pruning by a looser style

A looser style covers the style itself, whether what cannot be told about is kept or not: what it decides
is at least what was decided, and a decision by which a feature stays is one by which it stays when
raised. So nothing that was kept is pruned, in any mode.

Decisions and prunings are compared where both are there. No number of a tile is looked at unless
filters are asked, so in the other modes it is the codec alone that can fail.
-/
namespace StyledTiles

/-- A looser style keeps what the style itself keeps. -/
theorem Style.Loosened.coveredBy {s s' : Style} (h : s.Loosened s') (z : Zoom) (keepUnknown : Bool) :
    s.CoveredBy s' z keepUnknown where
  visible _ hvisible := h.isVisible hvisible
  stays _ _ _ _ hr hr' hstays := Decision.stays_mono (h.evaluate_le hr hr') hstays

/-- Only filters have to be answered. -/
theorem Pruner.decides_of_mode {p : Pruner} {z : Zoom} (hmode : p.mode ≠ .layerFilter)
    (tile : List TileLayer) : p.Decides z tile := by
  intro layer _ _ f _
  unfold verdict?
  split
  next => exact absurd ‹p.mode = .layerFilter› hmode
  next => rfl

theorem Pruner.decides_of_asked {p : Pruner} {z : Zoom} {tile : List TileLayer}
    (asked : p.mode = .layerFilter →
      z.Fits ∧ ∀ layer ∈ tile, ∀ f ∈ layer.features, f.Legible) : p.Decides z tile := by
  by_cases hmode : p.mode = .layerFilter
  · obtain ⟨hz, legible⟩ := asked hmode
    exact decides_of_legible hz legible
  · exact decides_of_mode hmode tile

/-- Where the filters that are asked, if any are, are asked about features in range, it is the codec
alone that can fail. -/
theorem Pruner.pruneBlob_isOk_of_asked {p : Pruner} {z : Zoom} {Blob : Type} {codec : Codec Blob}
    {blob : Blob} {tile : List TileLayer} (decoded : codec.tileOf blob = .ok tile)
    (asked : p.mode = .layerFilter →
      z.Fits ∧ ∀ layer ∈ tile, ∀ f ∈ layer.features, f.Legible) :
    (∃ out t, p.pruneBlob z codec blob = .ok (out, t)) ↔ p.Writes z codec tile := by
  rw [pruneBlob_isOk decoded]
  exact and_iff_right (decides_of_asked asked)

/-- What loosening a style can do, where both documents load: source-layers are not lost, nothing drawn
is hidden, decisions only rise, and of a tile at least as much is left. Decisions are there where all
numbers are in range. There, and without filters asked anywhere, a tile that decodes is pruned by either
style exactly if the codec takes what that style leaves. -/
theorem looser_style_never_prunes_more {j k : Json} {s s' : Style} {path path' : Option String}
    (h : j.StyleLoosened k) (hs : (Style.ofJson j path).result = .ok s)
    (hs' : (Style.ofJson k path').result = .ok s') :
    s.sourceLayers ⊆ s'.sourceLayers ∧
      (∀ name z, s.isVisible name z = true → s'.isVisible name z = true) ∧
      (∀ name z f d d', s.decision name z f = .ok d → s'.decision name z f = .ok d' → d ≤ d') ∧
      (∀ name z f, z.Fits → f.Fits →
        ∃ d d', s.decision name z f = .ok d ∧ s'.decision name z f = .ok d') ∧
      ∀ (mode : PruningMode) (keepUnknown : Bool) (z : Zoom) {Blob : Type} (codec : Codec Blob)
          (blob : Blob),
        (∀ out out' t t',
          Pruner.pruneBlob ⟨some s, mode, keepUnknown⟩ z codec blob = .ok (out, t) →
          Pruner.pruneBlob ⟨some s', mode, keepUnknown⟩ z codec blob = .ok (out', t') →
          List.SublistForall₂ PreparedLayer.Within t.layers t'.layers) ∧
        ∀ tile, codec.tileOf blob = .ok tile →
          (mode = .layerFilter → z.Fits ∧ ∀ layer ∈ tile, ∀ f ∈ layer.features, f.Legible) →
          ((∃ out t, Pruner.pruneBlob ⟨some s, mode, keepUnknown⟩ z codec blob = .ok (out, t)) ↔
            Pruner.Writes ⟨some s, mode, keepUnknown⟩ z codec tile) ∧
          ((∃ out t, Pruner.pruneBlob ⟨some s', mode, keepUnknown⟩ z codec blob = .ok (out, t)) ↔
            Pruner.Writes ⟨some s', mode, keepUnknown⟩ z codec tile) := by
  have loosened := Style.ofJson_loosened h hs hs'
  refine ⟨loosened.sourceLayers, fun _ _ => loosened.isVisible, ?_, ?_, ?_⟩
  · intro name z f d d' hd hd'
    exact loosened.decision_le hd hd'
  · intro name z f hz hf
    obtain ⟨d, hd⟩ := Style.decision_ok hf hz s name
    obtain ⟨d', hd'⟩ := Style.decision_ok hf hz s' name
    exact ⟨d, d', hd, hd'⟩
  · intro mode keepUnknown z Blob codec blob
    constructor
    · intro out out' t t' ht ht'
      exact Pruner.pruneBlob_covered (loosened.coveredBy z keepUnknown) ht ht'
    · intro tile decoded asked
      exact ⟨Pruner.pruneBlob_isOk_of_asked decoded asked, Pruner.pruneBlob_isOk_of_asked decoded asked⟩

/-! ## Documents of lakes -/

/-- A document of some entries and one for lakes, which states more than where lakes are found. -/
def lakesAmong (entries : List Json) (more : Json.Members) : Json :=
  .obj [("layers", .arr (entries ++
    [.obj ([("source", .str "tiles"), ("source-layer", .str "water")] ++ more)]))]

/-- Lakes with a depth, from zoom 2 on. -/
def lakesWithDepth : Json :=
  lakesAmong [] [("minzoom", .int 2), ("filter", .arr [.str "has", .str "depth"])]

/-- Roads, and all lakes at all zooms: what stands for a bound is no number. -/
def roadsAndLakes : Json :=
  lakesAmong [.obj [("source", .str "tiles"), ("source-layer", .str "roads")]]
    [("minzoom", .str "two")]

theorem lakesWithDepth_loosened : lakesWithDepth.StyleLoosened roadsAndLakes := by
  refine .entries rfl rfl (.cons_right (.cons (.members ?_) .nil))
  refine ⟨fun key hkey => ?_, .inr rfl, .inl rfl, .inl rfl, ⟨fun _ => false, rfl, by simp⟩,
    .inr (.inl rfl)⟩
  simp only [List.mem_cons, List.not_mem_nil, or_false, not_or] at hkey
  have hmin : (key == "minzoom") = false := by simpa using hkey.1
  have hfilter : (key == "filter") = false := by simpa using hkey.2.2.2.2
  simp [Json.member, List.lookup_cons, hmin, hfilter]

/-- Of the two lakes and the road in the tile, the lake with a depth is kept, and then all three. -/
theorem looser_style_keeps_the_lake : lakesWithDepth.StyleLoosened roadsAndLakes ∧
    ∃ s s', (Style.ofJson lakesWithDepth none).result = .ok s ∧
      (Style.ofJson roadsAndLakes none).result = .ok s' ∧
      s.sourceLayers = ["water"] ∧ "water" ∈ s'.sourceLayers ∧
      s.isVisible "water" (.int 3) = true ∧ s'.isVisible "water" (.int 3) = true ∧
      (∃ d', s.decision "water" (.int 3) {} = .ok .no ∧
        s'.decision "water" (.int 3) {} = .ok d' ∧ .no ≤ d') ∧
      ∃ out out' t t',
        Pruner.pruneBlob ⟨some s, .layerFilter, false⟩ (.int 3) .bare (true, lakeTile) =
          .ok (out, t) ∧
        Pruner.pruneBlob ⟨some s', .layerFilter, false⟩ (.int 3) .bare (true, lakeTile) =
          .ok (out', t') ∧
        t.featuresKept = 1 ∧ t'.featuresKept = 3 ∧
        List.SublistForall₂ PreparedLayer.Within t.layers t'.layers := by
  have hs : (Style.ofJson lakesWithDepth none).result = .ok _ := rfl
  have hs' : (Style.ofJson roadsAndLakes none).result = .ok _ := rfl
  obtain ⟨sourceLayers, visible, rises, decides, pruned⟩ :=
    looser_style_never_prunes_more lakesWithDepth_loosened hs hs'
  have hz : (Number.int 3).Fits := by decide
  obtain ⟨d, d', hd, hd'⟩ := decides "water" (.int 3) {} hz ⟨by simp, by simp [Json.MembersFit]⟩
  obtain rfl : d = .no := Except.ok.inj (hd.symm.trans rfl)
  have rise := rises _ _ _ _ _ hd hd'
  obtain ⟨remains, returns⟩ := pruned .layerFilter false (.int 3) .bare (true, lakeTile)
  have decoded : Codec.bare.tileOf (true, lakeTile) = .ok lakeTile := rfl
  obtain ⟨before, after⟩ := returns lakeTile decoded fun _ => ⟨hz, lakeTile_legible⟩
  obtain ⟨out, t, ht⟩ := before.mpr (lakeTile_writes _ _)
  obtain ⟨out', t', ht'⟩ := after.mpr (lakeTile_writes _ _)
  have kept : t.featuresKept = 1 := by
    obtain ⟨h, _⟩ := (Pruner.pruneBlob_of_decoded decoded).mp ht
    exact (Pruner.prune_accounts h).featuresKept.trans (by decide)
  have kept' : t'.featuresKept = 3 := by
    obtain ⟨h, _⟩ := (Pruner.pruneBlob_of_decoded decoded).mp ht'
    exact (Pruner.prune_accounts h).featuresKept.trans (by decide)
  exact ⟨lakesWithDepth_loosened, _, _, hs, hs', rfl, sourceLayers (by decide), rfl,
    visible _ _ rfl, ⟨d', hd, hd', rise⟩, out, out', t, t', ht, ht', kept, kept',
    remains _ _ _ _ ht ht'⟩

def withAnyDepth : Json.Members := [("filter", .arr [.str "has", .str "depth"])]

/-- An entry for lakes that are deep. -/
def deepLakes : Json :=
  .obj [("source", .str "tiles"), ("source-layer", .str "water"),
    ("filter", .arr [.str "==", .str "depth", .str "deep"])]

def deepFirst : Style :=
  ⟨[("water", [
    { sourceLayer := "water", filter := some (.compare false (.get "depth") (.string "deep")) },
    { sourceLayer := "water", filter := some (.present false "depth") }])]⟩

/-- A decision may be lost: an entry that was inserted is asked first, and the number it asks for may be
out of range. -/
theorem looser_style_may_not_decide : ¬ ∀ (j k : Json) (path : Option String) (s s' : Style),
    j.StyleLoosened k → (Style.ofJson j path).result = .ok s →
    (Style.ofJson k path).result = .ok s' → ∀ name z f d, s.decision name z f = .ok d →
    ∃ d', s'.decision name z f = .ok d' ∧ d ≤ d' := by
  intro always
  have inserted : (lakesAmong [] withAnyDepth).StyleLoosened (lakesAmong [deepLakes] withAnyDepth) :=
    .entries rfl rfl (.cons_right (.cons (.same _) .nil))
  obtain ⟨d', hd', _⟩ := always _ _ none _ deepFirst inserted rfl rfl
    "water" (.int 3) fathomlessLake .yes rfl
  have fails : deepFirst.decision "water" (.int 3) fathomlessLake = .error ⟨⟩ := by decide +kernel
  cases fails.symm.trans hd'

end StyledTiles
