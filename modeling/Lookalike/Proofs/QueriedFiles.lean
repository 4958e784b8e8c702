-- What a query reads: a table, an index and a listing. It cannot tell two trees
-- apart in which these three files are read alike, so whatever is written next to
-- them leaves its answer alone.
import Lookalike.Commands
import Lookalike.Proofs.KeptFiles

namespace Lookalike

open CommandLine (QueryChoice)

/-! ## What is read again -/

namespace Loader

theorem loadFile_eq_ok_iff {l : Loader} {files : Folder} {p : Path} {streams : List Stream} :
    l.loadFile files p = .ok streams ↔ ∃ content, Content.read files p = .ok content ∧
      streams = l.segmentation.streams l.normalizer p content.chars := by
  unfold loadFile
  rw [Attempt.bind_eq_ok_iff]
  simp only [pure, Except.pure, Except.ok.injEq, eq_comm]

end Loader

namespace CommandLine.Order

end CommandLine.Order

/-! ## What stays outside of some places -/

end Lookalike
