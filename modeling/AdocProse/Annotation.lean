import AdocProse.Json.Printer
import AdocProse.Tree.Node

/-!
Annotated text: the prose of a document, which is checked, and its markup, which only keeps the
positions right. Annotating a tree takes its leaves in document order, each as one segment.
-/

namespace AdocProse

inductive Segment where
  | text (s : String)
  | markup (s : String)
  deriving DecidableEq

namespace Segment

def content : Segment → String
  | .text s => s
  | .markup s => s

def isText : Segment → Bool
  | .text _ => true
  | .markup _ => false

end Segment

structure AnnotatedText where
  segments : List Segment
  deriving DecidableEq

namespace AnnotatedText

def empty : AnnotatedText :=
  ⟨[]⟩

def add (a : AnnotatedText) (s : Segment) : AnnotatedText :=
  ⟨a.segments ++ [s]⟩

/-- Prose and markup, as in the document. -/
def text (a : AnnotatedText) : String :=
  String.join (a.segments.map Segment.content)

def plainText (a : AnnotatedText) : String :=
  String.join ((a.segments.filter Segment.isText).map Segment.content)

def size (a : AnnotatedText) : Nat :=
  Utf8.total (a.segments.map Segment.content)

def isEmpty (a : AnnotatedText) : Bool :=
  a.size == 0

def segmentJson : Segment → List Char
  | .text s => Json.Printer.object [("text", Json.Printer.string s)]
  | .markup s => Json.Printer.object [("markup", Json.Printer.string s)]

/-- The document in which the text is sent to the server. -/
def toJson (a : AnnotatedText) : String :=
  String.ofList (Json.Printer.object
    [("annotation", Json.Printer.array (a.segments.map segmentJson))])

end AnnotatedText

/-- Only running text and the white space in it is prose. -/
def Kind.isProse : Kind → Bool
  | .text => true
  | .whiteSpace => true
  | _ => false

def Kind.segment (k : Kind) (s : String) : Segment :=
  if k.isProse then .text s else .markup s

namespace AnnotatedText

mutual

def addTree (a : AnnotatedText) : Node → AnnotatedText
  | ⟨kind, some s, _, _, _⟩ => a.add (kind.segment s)
  | ⟨_, none, _, _, children⟩ => a.addForest children

def addForest (a : AnnotatedText) : List Node → AnnotatedText
  | [] => a
  | n :: ns => (a.addTree n).addForest ns

end

end AnnotatedText

namespace Node

def annotate (n : Node) : AnnotatedText :=
  AnnotatedText.empty.addTree n

end Node

end AdocProse
