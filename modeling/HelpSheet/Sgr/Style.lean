/-!
# Styles

A style sets graphic attributes before a text and clears them all after it. The codes come in a
fixed order: foreground, weight, dimming, underline, slant.
-/

set_option autoImplicit false
set_option relaxedAutoImplicit false

namespace HelpSheet.Sgr

/-- The eight hues of a terminal, in the order of their codes. -/
inductive Hue
  | black | red | green | yellow | blue | magenta | cyan | white
  deriving DecidableEq, Repr

namespace Hue

def all : List Hue :=
  [black, red, green, yellow, blue, magenta, cyan, white]

def name : Hue → String
  | black => "black"
  | red => "red"
  | green => "green"
  | yellow => "yellow"
  | blue => "blue"
  | magenta => "magenta"
  | cyan => "cyan"
  | white => "white"

/-- The last digit of the hue's codes. -/
def digit : Hue → Nat
  | black => 0
  | red => 1
  | green => 2
  | yellow => 3
  | blue => 4
  | magenta => 5
  | cyan => 6
  | white => 7

end Hue

/-- A foreground color: a hue, its bright form, or the terminal's own color. -/
inductive Color
  | plain (hue : Hue)
  | bright (hue : Hue)
  | reset
  deriving DecidableEq, Repr

namespace Color

def all : List Color :=
  Hue.all.map plain ++ reset :: Hue.all.map bright

def name : Color → String
  | plain hue => hue.name
  | bright hue => "bright_" ++ hue.name
  | reset => "reset"

/-- The color of a name; names are case-sensitive. -/
def ofName? (name : String) : Option Color :=
  all.find? fun color ↦ color.name = name

/-- The code that selects the color as foreground. -/
def code : Color → Nat
  | plain hue => 30 + hue.digit
  | bright hue => 90 + hue.digit
  | reset => 39

end Color

/-- The control sequence that sets one graphic attribute. -/
def attributeSequence (code : Nat) : String :=
  "\x1b[" ++ toString code ++ "m"

/-- The sequence that clears every attribute. -/
def clearAll : String := "\x1b[0m"

/-- The attributes that a style sets. An absent attribute is not mentioned; `some false` turns the
attribute off. -/
structure Style where
  foreground : Option Color := none
  bold : Option Bool := none
  dim : Option Bool := none
  underline : Option Bool := none
  italic : Option Bool := none
  deriving DecidableEq, Repr

namespace Style

/-- The code of an attribute that can be on or off. -/
def switch (on off : Nat) : Option Bool → List Nat
  | none => []
  | some true => [on]
  | some false => [off]

/-- The codes of a style, in the order in which they are written. -/
def codes (style : Style) : List Nat :=
  style.foreground.toList.map Color.code ++ switch 1 22 style.bold ++ switch 2 22 style.dim ++
    switch 4 24 style.underline ++ switch 3 23 style.italic

/-- The text between the style's sequences and the one that clears them, which is always there. -/
def apply (style : Style) (text : String) : String :=
  String.join (style.codes.map attributeSequence) ++ text ++ clearAll

end Style

/-- A function that decorates texts for display, such as `Style.apply` of a style. -/
abbrev Painter := String → String

/-- A painted text, or the text as it is where there is no painter. -/
def paint (painter : Option Painter) (text : String) : String :=
  match painter with
  | some painter => painter text
  | none => text

end HelpSheet.Sgr
