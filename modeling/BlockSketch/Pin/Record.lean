import BlockSketch.Document.Basic
import BlockSketch.Pin

/-!
# Pin records

The form in which documents hold pins and their counts.
-/

namespace BlockSketch.Pin

/-- A numbered pin is a number, a named one a text. -/
def toDocument : Pin → Document
  | number n => .int n
  | name s => .text s

def Counts.toRecord (c : Counts) : Document :=
  .object [("digital", .int c.digital), ("analog", .int c.analog)]

end BlockSketch.Pin
