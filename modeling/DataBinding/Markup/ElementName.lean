/-
  The names of elements, and the classes of names that the construction of a
  tree goes by.

  An `ElementName` is a tag name in one of three vocabularies: HTML, SVG or
  MathML.  Names of the latter two are adjusted: tag and attribute names of SVG
  get their capitals back (`svgTag`, `svgAttribute`).
-/
import DataBinding.Text.Blank

namespace DataBinding.Markup

/-- A vocabulary of elements. -/
inductive Vocabulary where
  /-- HTML. -/
  | html
  /-- SVG. -/
  | svg
  /-- MathML. -/
  | mathml
  deriving DecidableEq

/-- A tag name in a vocabulary. -/
structure ElementName where
  /-- The vocabulary. -/
  vocabulary : Vocabulary
  /-- The tag name. -/
  tag : String
  deriving DecidableEq

namespace ElementName

/-- An element of HTML whose tag is one of the given ones. -/
def isHtmlIn (tags : List String) (name : ElementName) : Bool :=
  name.vocabulary = .html && tags.contains name.tag

/-- An element of MathML that holds text. -/
def holdsMathText (name : ElementName) : Bool :=
  name.vocabulary = .mathml && ["mi", "mo", "mn", "ms", "mtext"].contains name.tag

/-- An element of SVG that holds HTML. -/
def holdsHtml (name : ElementName) : Bool :=
  name.vocabulary = .svg && ["foreignObject", "desc", "title"].contains name.tag

end ElementName

/-! ## Classes of tags -/

/-- Formatting tags, which are opened again after a block cuts them. -/
def formattingTags : List String :=
  ["a", "b", "big", "code", "em", "font", "i", "nobr", "s", "small", "strike", "strong", "tt", "u"]

/-- The headings. -/
def headingTags : List String := ["h1", "h2", "h3", "h4", "h5", "h6"]

/-- Tags with rules of their own, at which a search for a generic end tag
    stops. -/
def specialTags : List String :=
  ["address", "applet", "area", "article", "aside", "base", "basefont", "bgsound", "blockquote",
    "body", "br", "button", "caption", "center", "col", "colgroup", "dd", "details", "dir", "div",
    "dl", "dt", "embed", "fieldset", "figcaption", "figure", "footer", "form", "frame", "frameset",
    "h1", "h2", "h3", "h4", "h5", "h6", "head", "header", "hgroup", "hr", "html", "iframe", "img",
    "input", "isindex", "li", "link", "listing", "main", "marquee", "menu", "meta", "nav",
    "noembed", "noframes", "noscript", "object", "ol", "p", "param", "plaintext", "pre", "script",
    "section", "select", "source", "style", "summary", "table", "tbody", "td", "template",
    "textarea", "tfoot", "th", "thead", "title", "tr", "track", "ul", "wbr", "xmp"]

/-- Blocks that close a paragraph and have an end tag of their own. -/
def blockTags : List String :=
  ["address", "article", "aside", "blockquote", "center", "details", "dialog", "dir", "div", "dl",
    "fieldset", "figcaption", "figure", "footer", "header", "hgroup", "main", "menu", "nav", "ol",
    "p", "search", "section", "summary", "ul"]

/-- Blocks with an end tag that closes the innermost of that name. -/
def closableTags : List String :=
  ["address", "article", "aside", "blockquote", "button", "center", "details", "dialog", "dir",
    "div", "dl", "fieldset", "figcaption", "figure", "footer", "header", "hgroup", "listing",
    "main", "menu", "nav", "ol", "pre", "search", "section", "summary", "ul"]

/-- Tags whose end tag may be left out before the end of an outer element. -/
def impliedTags : List String :=
  ["dd", "dt", "li", "optgroup", "option", "p", "rb", "rp", "rt", "rtc"]

/-- The same with the parts of tables. -/
def thoroughlyImpliedTags : List String :=
  impliedTags ++ ["caption", "colgroup", "tbody", "td", "tfoot", "th", "thead", "tr"]

/-- Tags that bound the search for an open element. -/
def scopeTags : List String :=
  ["applet", "caption", "html", "marquee", "object", "table", "td", "template", "th"]

/-- Tags of elements that content of a table is moved out of. -/
def fosterTags : List String := ["table", "tbody", "tfoot", "thead", "tr"]

/-- Start tags that are left out of the tree where no table is open. -/
def tablePartTags : List String :=
  ["caption", "col", "colgroup", "frame", "head", "tbody", "td", "tfoot", "th", "thead", "tr"]

/-- Start tags that end the content of a foreign element. -/
def breakoutTags : List String :=
  ["b", "big", "blockquote", "body", "br", "center", "code", "dd", "div", "dl", "dt", "em", "embed",
    "h1", "h2", "h3", "h4", "h5", "h6", "head", "hr", "i", "img", "li", "listing", "menu", "meta",
    "nobr", "ol", "p", "pre", "ruby", "s", "small", "span", "strong", "strike", "sub", "sup",
    "table", "tt", "u", "ul", "var"]

/-! ## Scopes -/

/-- An element that bounds the search for an open element. -/
def boundsScope (name : ElementName) : Bool :=
  name.isHtmlIn scopeTags || name.holdsMathText || name.holdsHtml

/-- The same for list items. -/
def boundsListScope (name : ElementName) : Bool :=
  boundsScope name || name.isHtmlIn ["ol", "ul"]

/-- The same for paragraphs. -/
def boundsButtonScope (name : ElementName) : Bool :=
  boundsScope name || name.isHtmlIn ["button"]

/-- The same for the parts of tables. -/
def boundsTableScope (name : ElementName) : Bool :=
  name.isHtmlIn ["html", "table", "template"]

/-- The same for a selection. -/
def boundsSelectScope (name : ElementName) : Bool :=
  !name.isHtmlIn ["optgroup", "option"]

/-! ## Adjusted names -/

/-- Tag names of SVG with capitals. -/
def svgTags : List String :=
  ["altGlyph", "altGlyphDef", "altGlyphItem", "animateColor", "animateMotion", "animateTransform",
    "clipPath", "feBlend", "feColorMatrix", "feComponentTransfer", "feComposite",
    "feConvolveMatrix", "feDiffuseLighting", "feDisplacementMap", "feDistantLight",
    "feDropShadow", "feFlood", "feFuncA", "feFuncB", "feFuncG", "feFuncR", "feGaussianBlur",
    "feImage", "feMerge", "feMergeNode", "feMorphology", "feOffset", "fePointLight",
    "feSpecularLighting", "feSpotLight", "feTile", "feTurbulence", "foreignObject", "glyphRef",
    "linearGradient", "radialGradient", "textPath"]

/-- Attribute names of SVG with capitals. -/
def svgAttributes : List String :=
  ["attributeName", "attributeType", "baseFrequency", "baseProfile", "calcMode", "clipPathUnits",
    "diffuseConstant", "edgeMode", "filterUnits", "glyphRef", "gradientTransform",
    "gradientUnits", "kernelMatrix", "kernelUnitLength", "keyPoints", "keySplines", "keyTimes",
    "lengthAdjust", "limitingConeAngle", "markerHeight", "markerUnits", "markerWidth",
    "maskContentUnits", "maskUnits", "numOctaves", "pathLength", "patternContentUnits",
    "patternTransform", "patternUnits", "pointsAtX", "pointsAtY", "pointsAtZ", "preserveAlpha",
    "preserveAspectRatio", "primitiveUnits", "refX", "refY", "repeatCount", "repeatDur",
    "requiredExtensions", "requiredFeatures", "specularConstant", "specularExponent",
    "spreadMethod", "startOffset", "stdDeviation", "stitchTiles", "surfaceScale",
    "systemLanguage", "tableValues", "targetX", "targetY", "textLength", "viewBox", "viewTarget",
    "xChannelSelector", "yChannelSelector", "zoomAndPan"]

/-- The listed spelling of a name in small letters, else the name itself. -/
def respell (spellings : List String) (name : String) : String :=
  (spellings.find? fun s => Text.lower s == name).getD name

/-- A tag name of SVG with its capitals. -/
def svgTag (name : String) : String := respell svgTags name

/-- An attribute name of SVG with its capitals. -/
def svgAttribute (name : String) : String := respell svgAttributes name

/-- Attribute names with a known first part, which is not part of the name
    proper. -/
def qualifiedAttributes : List (String × String) :=
  [("xlink:actuate", "actuate"), ("xlink:arcrole", "arcrole"), ("xlink:href", "href"),
    ("xlink:role", "role"), ("xlink:show", "show"), ("xlink:title", "title"),
    ("xlink:type", "type"), ("xml:lang", "lang"), ("xml:space", "space"),
    ("xmlns:xlink", "xlink")]

/-- An attribute name of a foreign element, adjusted to its vocabulary. -/
def foreignAttribute (vocabulary : Vocabulary) (name : String) : String :=
  let adjusted :=
    match vocabulary with
    | .svg => svgAttribute name
    | .mathml => if name = "definitionurl" then "definitionURL" else name
    | .html => name
  (qualifiedAttributes.find? (·.1 == adjusted)).elim adjusted Prod.snd

end DataBinding.Markup
