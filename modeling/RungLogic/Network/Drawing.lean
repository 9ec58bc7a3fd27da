import RungLogic.Network
import RungLogic.Path

/-!
Drawings of networks: one node for each element, one edge for each wire. An element is active or
inactive where its output is given, and unknown otherwise. A drawing is text in DOT or in GraphML.
-/

set_option autoImplicit false
set_option relaxedAutoImplicit false

namespace RungLogic

/-- Whether the output of an element is on, by id. -/
abbrev Activity := Table Bool

/-- What a drawing shows of an element. -/
inductive Shade where
  | active | inactive | unknown
  deriving DecidableEq, Repr

def Shade.name : Shade → String
  | .active => "active"
  | .inactive => "inactive"
  | .unknown => "unknown"

def Shade.color : Shade → String
  | .active => "palegreen"
  | .inactive => "lightgrey"
  | .unknown => "lightblue"

def Activity.shade (a : Activity) (e : Element) : Shade :=
  match a.value? e.id with
  | some true => .active
  | some false => .inactive
  | none => .unknown

/-- The two forms of drawings. -/
inductive DrawingFormat where
  | dot | graphML
  deriving DecidableEq, Repr

def DrawingFormat.ofPath (path : String) : DrawingFormat :=
  if Path.lowerEnding path = ".graphml" then .graphML else .dot

namespace Network

def escapeQuotes (s : String) : String :=
  String.ofList (s.toList.flatMap fun c => if c = '"' || c = '\\' then ['\\', c] else [c])

def dotNode (a : Activity) (e : Element) : String :=
  "  \"" ++ e.id ++ "\" [label=\"" ++ escapeQuotes e.label ++ "\", fillcolor=\"" ++
    (a.shade e).color ++ "\"];"

def dotEdge (c : Connection) : String :=
  "  \"" ++ c.source.element ++ "\" -> \"" ++ c.target.element ++ "\" [label=\"" ++ c.source.port ++
    "->" ++ c.target.port ++ "\"];"

def dotLines (n : Network) (a : Activity) : List String :=
  ["digraph LD \x7b", "  rankdir=LR;", "  node [shape=box, style=filled];",
    "  label=\"" ++ escapeQuotes n.id ++ "\";", ""] ++
    n.elements.map (dotNode a) ++ [""] ++ n.connections.map dotEdge ++ ["\x7d"]

def escapeMarkup (c : Char) : List Char :=
  if c = '&' then "&amp;".toList
  else if c = '<' then "&lt;".toList
  else if c = '>' then "&gt;".toList
  else [c]

def markup (s : String) : String := String.ofList (s.toList.flatMap escapeMarkup)

def graphMLNode (a : Activity) (e : Element) : List String :=
  ["    <node id=\"" ++ markup e.id ++ "\">",
    "      <data key=\"label\">" ++ markup e.label ++ "</data>",
    "      <data key=\"type\">" ++ e.kind.name ++ "</data>",
    "      <data key=\"state\">" ++ (a.shade e).name ++ "</data>",
    "    </node>"]

def graphMLEdges : Nat → List Connection → List String
  | _, [] => []
  | index, c :: rest =>
    ["    <edge id=\"e" ++ toString index ++ "\" source=\"" ++ markup c.source.element ++
        "\" target=\"" ++ markup c.target.element ++ "\">",
      "      <data key=\"ports\">" ++ markup c.source.port ++ "-&gt;" ++ markup c.target.port ++
        "</data>",
      "    </edge>"] ++ graphMLEdges (index + 1) rest

def graphMLHead : List String :=
  ["<?xml version=\"1.0\" encoding=\"UTF-8\"?>",
    "<graphml xmlns=\"http://graphml.graphdrawing.org/xmlns\"",
    "         xmlns:xsi=\"http://www.w3.org/2001/XMLSchema-instance\"",
    "         xsi:schemaLocation=\"http://graphml.graphdrawing.org/xmlns",
    "         http://graphml.graphdrawing.org/xmlns/1.0/graphml.xsd\">",
    "",
    "  <key id=\"label\" for=\"node\" attr.name=\"label\" attr.type=\"string\"/>",
    "  <key id=\"type\" for=\"node\" attr.name=\"type\" attr.type=\"string\"/>",
    "  <key id=\"state\" for=\"node\" attr.name=\"state\" attr.type=\"string\"/>",
    "  <key id=\"ports\" for=\"edge\" attr.name=\"ports\" attr.type=\"string\"/>",
    ""]

def graphMLLines (n : Network) (a : Activity) : List String :=
  graphMLHead ++ ["  <graph id=\"" ++ markup n.id ++ "\" edgedefault=\"directed\">"] ++
    n.elements.flatMap (graphMLNode a) ++ graphMLEdges 0 n.connections ++
    ["  </graph>", "</graphml>"]

def drawing (n : Network) (a : Activity) (format : DrawingFormat) : String :=
  "\n".intercalate (match format with
    | .dot => n.dotLines a
    | .graphML => n.graphMLLines a)

end Network

end RungLogic
