import StyledScene.Box.Paint
import StyledScene.Style.Edit

/-!
# Kinds of nodes

The kind of a node decides what it inherits, which values it falls back on, and how its style is
summarized for painting. Three kinds are built in; a host may add its own.
-/

namespace StyledScene

/-- What sets one kind of node apart. -/
structure Kind where
  /-- The name of the kind, and the first tag of its nodes. -/
  name : String
  inherits : InheritTable
  /-- The default values of a new node. -/
  defaults : Style
  /-- The summary that is taken after every computation of a style. -/
  summarize : Style → BoxFlags

namespace Kind

/-- The least height of a line of text. -/
def textMinHeight : Float32 := 16.0

/-- The least height of an input field. -/
def inputMinHeight : Float32 := 24.0

/-- The width of the frame of an input field. -/
def inputBorderWidth : Float32 := 1.0

/-- A box for layout; it inherits nothing. -/
def container : Kind := ⟨"container", .empty, Style.empty, BoxFlags.ofStyle⟩

/-- A piece of text. -/
def text : Kind where
  name := "text"
  inherits := .text
  defaults := Style.ofEdits [.set .minHeight textMinHeight, .set .textAntialias true]
  summarize := BoxFlags.ofStyle

/-- A piece of text that can be edited. -/
def input : Kind where
  name := "input"
  inherits := .input
  defaults := Style.ofEdits [
    .set .minHeight inputMinHeight,
    .set .cursor "text",
    .set .textAntialias true,
    .set .clipChildren true,
    .set .borderWidth inputBorderWidth,
    .set .borderColor Color.gray]
  summarize := BoxFlags.ofStyle

end Kind

end StyledScene
