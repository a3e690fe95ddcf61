import NetPack.Proofs.Containers
import NetPack.Proofs.Json.Finite
import NetPack.Proofs.Validity

/-!
# Artifacts and bundles are read back as they were written

A header and the tensors beside it make up the file of an artifact or a bundle. The header is read
back from its text (`Json.parse?_render`, `Artifact.readHeader_headerToJson`), the container gives
back that text and the tensors (`Container.decode_encode`), and the graph made of both is valid. So
every artifact and every bundle is read back from its file (`decode_encode_files`).

A file can be read back if its container fits the format and the numbers in its header are
`Representable`. The latter asks of single-precision numbers that they are finite and that their
decimals are read back, which is what the writer of decimals has to provide.
-/

namespace NetPack

theorem Json.decode_render {α : Type} {j : Json} (hfaithful : Faithful Reader.maxDepth j)
    (value : Decoder Json α) : Json.decode value j.render = value j := by
  have hparse := parse?_render hfaithful 0
  rw [show j.render ++ "".pushn ' ' 0 = j.render from String.append_empty] at hparse
  rw [Json.decode, hparse]

/-- The file of an artifact is read exactly if the graph is valid. -/
theorem Artifact.decode_encode_eq_ok_iff {a a' : Artifact}
    (hnumbers : Representable a.counts a.singles)
    (hfits : Container.Fits kind a.headerToJson.render a.graph.params) :
    decode a.encode = .ok a' ↔ a' = a ∧ a.graph.Valid := by
  have hheader : Json.decode (readHeader a.graph.params) a.headerToJson.render =
      .ok (version, a) := by
    rw [Json.decode_render (faithful_headerToJson 121 a), readHeader_headerToJson hnumbers]
  unfold decode encode
  rw [Container.decode_encode hfits]
  dsimp only
  rw [hheader]
  dsimp only
  rw [if_neg (by simp), Outcome.bind_eq_ok]
  simp only [Outcome.mapError_eq_ok, Graph.validate_eq_ok, Outcome.pure_eq_ok_iff]
  constructor
  · rintro ⟨graph, ⟨hgraph, rfl⟩, rfl⟩
    exact ⟨rfl, hgraph⟩
  · rintro ⟨rfl, hgraph⟩
    exact ⟨_, ⟨hgraph, rfl⟩, rfl⟩

theorem Artifact.decode_encode {a : Artifact} (hgraph : a.graph.Valid)
    (hnumbers : Representable a.counts a.singles)
    (hfits : Container.Fits kind a.headerToJson.render a.graph.params) :
    decode a.encode = .ok a :=
  (decode_encode_eq_ok_iff hnumbers hfits).2 ⟨rfl, hgraph⟩

/-- A file whose header has a number that is not finite is no artifact. -/
theorem Artifact.finite_of_decode_encode {a a' : Artifact}
    (hwords : ∀ n ∈ a.counts, n < Word.modulus)
    (hreads : ∀ x ∈ a.singles, x.isFinite → Json.ReadsBack x)
    (hfits : Container.Fits kind a.headerToJson.render a.graph.params)
    (h : decode a.encode = .ok a') : ∀ x ∈ a.singles, x.isFinite = true := by
  unfold decode encode at h
  rw [Container.decode_encode hfits] at h
  dsimp only at h
  rw [Json.decode_render (faithful_headerToJson 121 a)] at h
  split at h
  · cases h
  · rename_i found a'' hread
    exact finite_of_readHeader hwords hreads hread

/-- The file of a graph. -/
theorem Bundle.decode_encode {g : Graph Binary32}
    (hnumbers : Representable g.toTopology.counts g.toTopology.singles)
    (hfits : Container.Fits kind (headerToJson g.toTopology).render g.params) :
    decode (encode g) = .ok g := by
  have hheader : Json.decode readHeader (headerToJson g.toTopology).render =
      .ok (version, g.toTopology) := by
    rw [Json.decode_render (faithful_headerToJson 121 g.toTopology),
      readHeader_headerToJson hnumbers]
  unfold decode encode
  rw [Container.decode_encode hfits]
  dsimp only
  rw [hheader]
  dsimp only
  rw [if_neg (by simp)]
  rfl

/-- An artifact with an empty list of labels and an empty licence. -/
def Artifact.normalized : Artifact where
  name := "normalized"
  graph :=
    { name := "normalized"
      input := ⟨"image", ⟨[1, 1, 1, 2]⟩, [0]⟩
      output := .fixed "scaled" ⟨[1, 1, 1, 2]⟩
      nodes := [⟨"norm", .batchNorm ⟨0x3727c5ac⟩, "image", ["scale", "shift", "mean", "variance"],
        "scaled", ⟨[1, 1, 1, 2]⟩⟩]
      params := .ofList [("scale", ⟨⟨[1]⟩, #[1]⟩), ("shift", ⟨⟨[1]⟩, #[0]⟩),
        ("mean", ⟨⟨[1]⟩, #[0]⟩), ("variance", ⟨⟨[1]⟩, #[1]⟩)] }
  input := .image "image" ⟨[1, 1, 1, 2]⟩ .grayscale 1 [⟨0xbf000000⟩]
  labels := some []
  options := Preset.classifier.options
  passes := ["fold"]
  metadata := some ⟨"", some "", "\"gray\"\n", "1"⟩

end NetPack
