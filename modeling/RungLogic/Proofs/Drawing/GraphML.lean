import RungLogic.Proofs.Drawing.Lines
import RungLogic.Proofs.Drawing.Markup
import RungLogic.Proofs.Network.Parts
import RungLogic.Proofs.Number.Numerals

/-!
Drawings in GraphML, read back. Texts between tags are escaped so that they are read as they are, and so are
values of attributes but for quotes, each of which ends a value. So a drawing says what it is to say exactly if no
quote stands in the id of the network or of an element.
-/

set_option autoImplicit false
set_option relaxedAutoImplicit false

namespace RungLogic

namespace Markup

def attributeTokens (key value : String) : List Token := [⟨.key, key⟩, ⟨.value, value⟩]

/-- An element with a text that says something of the element around it. -/
def dataTokens (key body : String) : List Token :=
  ⟨.tag, "data"⟩ :: attributeTokens "key" key ++ [⟨.text, body⟩, ⟨.closing, "data"⟩]

/-- The line of such an element, with the line feed before it. -/
def dataText (key body : String) : List Char :=
  '\n' :: ("      <data key=\"".toList ++ ((Network.markup key).toList ++ ['"'] ++
    (['>'] ++ ((Network.markup body).toList ++ ['<'] ++ "/data>".toList))))

variable {s : String}

private theorem isLegal_markup (h : IsLegal s) : IsLegal (Network.markup s) := by
  intro c hc
  rw [Network.markup, String.toList_ofList] at hc
  obtain ⟨d, hd, hc⟩ := List.mem_flatMap.mp hc
  unfold Network.escapeMarkup at hc
  split at hc
  · exact (by decide : IsLegal "&amp;") c hc
  split at hc
  · exact (by decide : IsLegal "&lt;") c hc
  split at hc
  · exact (by decide : IsLegal "&gt;") c hc
  · rw [List.mem_singleton.mp hc]
    exact h d hd

private theorem isLegal_intercalate {ls : List String} (h : ∀ l ∈ ls, IsLegal l) :
    IsLegal ("\n".intercalate ls) := by
  rw [IsLegal, Text.toList_intercalate_feed]
  intro c hc
  obtain ⟨l, hl, hc⟩ := List.mem_flatMap.mp (List.mem_of_mem_tail hc)
  rcases List.mem_cons.mp hc with rfl | hc
  · decide
  · exact h l hl c hc

private theorem markup_append (s t : String) :
    Network.markup (s ++ t) = Network.markup s ++ Network.markup t := by
  rw [Network.markup, String.toList_append, List.flatMap_append, String.ofList_append]
  rfl

private theorem markup_eq_self (h : ∀ c ∈ s.toList, c ≠ '&' ∧ c ≠ '<' ∧ c ≠ '>') :
    Network.markup s = s := by
  have same : s.toList.flatMap Network.escapeMarkup = s.toList := by
    generalize s.toList = cs at h
    induction cs with
    | nil => rfl
    | cons c cs ih =>
      obtain ⟨amp, lt, gt⟩ := h c List.mem_cons_self
      rw [List.flatMap_cons, ih fun d hd => h d (List.mem_cons_of_mem c hd), Network.escapeMarkup,
        if_neg amp, if_neg lt, if_neg gt, List.singleton_append]
  rw [Network.markup, same, String.ofList_toList]

private theorem run_data (key body : String) (noQuote : '"' ∉ key.toList)
    (shown : ∃ c ∈ body.toList, isBlank c = false) :
    run { place := .text } (dataText key body) = some (dataTokens key body, { place := .text }) := by
  have opens : run { place := .text } ('\n' :: "      <data key=\"".toList) =
      some ([⟨.tag, "data"⟩, ⟨.key, "key"⟩], { place := .value }) := rfl
  have leaves : run { place := .after } ['>'] = some ([], { place := .text }) := by decide
  have closes : run { place := .opening } "/data>".toList =
      some ([⟨.closing, "data"⟩], { place := .text }) := rfl
  rw [dataText, ← List.cons_append, run_trans opens (run_trans (run_value noQuote)
    (run_trans leaves (run_trans (run_text shown) closes)))]
  rfl

end Markup

namespace Network

open Markup

def graphMLKeyTokens (name owner : String) : List Token :=
  ⟨.tag, "key"⟩ :: attributeTokens "id" name ++ attributeTokens "for" owner ++
    attributeTokens "attr.name" name ++ attributeTokens "attr.type" "string" ++ [⟨.mark, "/"⟩]

def graphMLHeadTokens : List Token :=
  ⟨.tag, "?xml"⟩ :: attributeTokens "version" "1.0" ++ attributeTokens "encoding" "UTF-8" ++
    [⟨.mark, "?"⟩] ++
  ⟨.tag, "graphml"⟩ :: attributeTokens "xmlns" "http://graphml.graphdrawing.org/xmlns" ++
    attributeTokens "xmlns:xsi" "http://www.w3.org/2001/XMLSchema-instance" ++
    attributeTokens "xsi:schemaLocation" ("http://graphml.graphdrawing.org/xmlns\n" ++
      "         http://graphml.graphdrawing.org/xmlns/1.0/graphml.xsd") ++
  graphMLKeyTokens "label" "node" ++ graphMLKeyTokens "type" "node" ++
    graphMLKeyTokens "state" "node" ++ graphMLKeyTokens "ports" "edge"

def graphMLNodeTokens (a : Activity) (e : Element) : List Token :=
  ⟨.tag, "node"⟩ :: attributeTokens "id" e.id ++ dataTokens "label" e.label ++
    dataTokens "type" e.kind.name ++ dataTokens "state" (a.shade e).name ++ [⟨.closing, "node"⟩]

/-- What a drawing in GraphML is to say of the wires from the one of that index on. -/
def graphMLEdgeTokens : Nat → List Connection → List Token
  | _, [] => []
  | index, c :: rest =>
    ⟨.tag, "edge"⟩ :: attributeTokens "id" ("e" ++ toString index) ++
      attributeTokens "source" c.source.element ++ attributeTokens "target" c.target.element ++
      dataTokens "ports" (c.source.port ++ "->" ++ c.target.port) ++ [⟨.closing, "edge"⟩] ++
      graphMLEdgeTokens (index + 1) rest

def graphMLTokens (n : Network) (a : Activity) : List Token :=
  graphMLHeadTokens ++ ⟨.tag, "graph"⟩ :: attributeTokens "id" n.id ++
    attributeTokens "edgedefault" "directed" ++ n.elements.flatMap (graphMLNodeTokens a) ++
    graphMLEdgeTokens 0 n.connections ++ [⟨.closing, "graph"⟩, ⟨.closing, "graphml"⟩]

def texts (n : Network) : List String :=
  n.id :: n.elements.flatMap fun e => e.id :: e.properties.filterMap fun p => p.2.text?

variable {a : Activity} {e : Element} {es : List Element} {t : List Char} {ps : List Token}

private theorem graphMLHead_chars : ∃ lines : List (List Char), graphMLHead = lines.map String.ofList ∧
    lines.all (List.all · isLegal) = true ∧
    run { place := .text } (lines.flatMap ('\n' :: ·)).tail =
      some (graphMLHeadTokens, { place := .text, read := ['\n'] }) :=
  ⟨[_, _, _, _, _, _, _, _, _, _, _], rfl, by decide +kernel, by decide +kernel⟩

private theorem run_graphMLHead :
    run { place := .text } (graphMLHead.flatMap fun l => '\n' :: l.toList).tail =
      some (graphMLHeadTokens, { place := .text, read := ['\n'] }) := by
  obtain ⟨lines, head, -, read⟩ := graphMLHead_chars
  rw [head, List.flatMap_map]
  simpa only [String.toList_ofList] using read

private theorem isLegal_graphMLHead : ∀ l ∈ graphMLHead, IsLegal l := by
  obtain ⟨lines, head, legal, -⟩ := graphMLHead_chars
  rw [head]
  intro l hl
  obtain ⟨cs, hcs, rfl⟩ := List.mem_map.mp hl
  rw [IsLegal, String.toList_ofList]
  exact List.all_eq_true.mp (List.all_eq_true.mp legal cs hcs)

private theorem nameChar_plain {c : Char} (h : Kind.isNameChar c = true) :
    (c ≠ '&' ∧ c ≠ '<' ∧ c ≠ '>') ∧ isBlank c = false ∧ isLegal c = true := by
  have other (d : Char) (plain : Kind.isNameChar d = false) : c ≠ d := by
    rintro rfl
    cases h.symm.trans plain
  have low : 32 ≤ c.toNat := by
    have control : ∀ k < 32, Kind.isNameChar (Char.ofNat k) = false := by decide
    by_contra small
    have none := control c.toNat (Nat.lt_of_not_le small)
    rw [Char.ofNat_toNat, h] at none
    cases none
  refine ⟨⟨other _ rfl, other _ rfl, other _ rfl⟩, ?_, ?_⟩
  · simp [isBlank, other ' ' rfl, other '\t' rfl, other '\n' rfl, other '\r' rfl]
  · simp [isLegal, low, other '\uFFFE' rfl, other '\uFFFF' rfl]

private theorem markup_name {s : String} (h : ∀ c ∈ s.toList, Kind.isNameChar c = true) : markup s = s :=
  markup_eq_self fun c hc => (nameChar_plain (h c hc)).1

private theorem isLegal_name {s : String} (h : ∀ c ∈ s.toList, Kind.isNameChar c = true) : IsLegal s :=
  fun c hc => (nameChar_plain (h c hc)).2.2

private theorem shown_kind (k : Kind) : ∃ c ∈ k.name.toList, isBlank c = false := by
  have nonempty : k.name.toList ≠ [] := by cases k <;> decide
  obtain ⟨c, hc⟩ := List.exists_mem_of_ne_nil _ nonempty
  exact ⟨c, hc, (nameChar_plain (k.isNameChar_name c hc)).2.1⟩

private theorem shown_label (e : Element) : ∃ c ∈ e.label.toList, isBlank c = false := by
  obtain ⟨c, hc, shown⟩ := shown_kind e.kind
  refine ⟨c, ?_, shown⟩
  unfold Element.label
  split
  · rw [String.toList_append, String.toList_append]
    simp [hc]
  · exact hc

private theorem shown_shade (s : Shade) : ∃ c ∈ s.name.toList, isBlank c = false := by
  cases s
  · exact ⟨'a', by decide, rfl⟩
  · exact ⟨'i', by decide, rfl⟩
  · exact ⟨'u', by decide, rfl⟩

private theorem graphMLNode_shape (a : Activity) (e : Element) : ∃ rest,
    (graphMLNode a e).flatMap (fun l => '\n' :: l.toList) =
      ('\n' :: "    <node id=\"".toList) ++ ((markup e.id).toList ++ '"' :: rest) ∧
    run { place := .after } rest = some (dataTokens "label" e.label ++
      (dataTokens "type" e.kind.name ++ (dataTokens "state" (a.shade e).name ++ [⟨.closing, "node"⟩])),
        { place := .text }) := by
  refine ⟨['>'] ++ (dataText "label" e.label ++ (dataText "type" e.kind.name ++
    (dataText "state" (a.shade e).name ++ '\n' :: "    </node>".toList))), ?_, ?_⟩
  · have kind : markup e.kind.name = e.kind.name := markup_name e.kind.isNameChar_name
    have shade : markup (a.shade e).name = (a.shade e).name := by cases a.shade e <;> decide
    have keys : markup "label" = "label" ∧ markup "type" = "type" ∧ markup "state" = "state" := by decide
    simp [graphMLNode, dataText, String.toList_append, kind, shade, keys]
  · have leaves : run { place := .after } ['>'] = some ([], { place := .text }) := by decide
    have label := run_data "label" e.label (by decide) (shown_label e)
    have kind := run_data "type" e.kind.name (by decide) (shown_kind e.kind)
    have state := run_data "state" (a.shade e).name (by decide) (shown_shade (a.shade e))
    have closes : run { place := .text } ('\n' :: "    </node>".toList) =
        some ([⟨.closing, "node"⟩], { place := .text }) := rfl
    have all := run_trans leaves (run_trans label (run_trans kind (run_trans state closes)))
    exact all

/-- An element is read as it is to be exactly if its id has no quote. -/
private theorem reads_graphMLNode_iff :
    Reads { place := .text } ((graphMLNode a e).flatMap (fun l => '\n' :: l.toList) ++ t)
        (graphMLNodeTokens a e ++ ps) ↔
      '"' ∉ e.id.toList ∧ Reads { place := .text } t ps := by
  obtain ⟨rest, shape, read⟩ := graphMLNode_shape a e
  have opens : run { place := .text } ('\n' :: "    <node id=\"".toList) =
      some ([⟨.tag, "node"⟩, ⟨.key, "id"⟩], { place := .value }) := rfl
  have tokens : graphMLNodeTokens a e ++ ps = [⟨.tag, "node"⟩, ⟨.key, "id"⟩] ++ (⟨.value, e.id⟩ ::
      ((dataTokens "label" e.label ++ (dataTokens "type" e.kind.name ++
        (dataTokens "state" (a.shade e).name ++ [⟨.closing, "node"⟩]))) ++ ps)) := by
    simp [graphMLNodeTokens, attributeTokens]
  rw [shape, tokens, List.append_assoc, reads_append_iff opens, List.append_assoc, List.cons_append,
    reads_value_iff, reads_append_iff read]

private theorem reads_graphMLNodes_iff :
    Reads { place := .text }
        ((es.flatMap (graphMLNode a)).flatMap (fun l => '\n' :: l.toList) ++ t)
        (es.flatMap (graphMLNodeTokens a) ++ ps) ↔
      (∀ e ∈ es, '"' ∉ e.id.toList) ∧ Reads { place := .text } t ps := by
  induction es with
  | nil => simp
  | cons e es ih =>
    rw [List.flatMap_cons, List.flatMap_append, List.flatMap_cons, List.append_assoc,
      List.append_assoc, reads_graphMLNode_iff, ih, List.forall_mem_cons, and_assoc]

private theorem isNameChar_edge (index : Nat) :
    ∀ c ∈ ("e" ++ toString index).toList, Kind.isNameChar c = true := by
  intro c hc
  rw [String.toList_append, Nat.toString_eq_repr, Nat.toList_repr, List.mem_append] at hc
  rcases hc with letter | digit
  · obtain rfl : c = 'e' := by simpa using letter
    decide
  · simp [Kind.isNameChar, Char.isAlphanum, Json.isDigit_of_mem_toDigits c digit]

/-- The texts that an edge is made of. -/
def edgeText (index : Nat) (c : Connection) : List Char :=
  '\n' :: ("    <edge id=\"".toList ++ ((markup ("e" ++ toString index)).toList ++ ['"'] ++
    (" source=\"".toList ++ ((markup c.source.element).toList ++ ['"'] ++
    (" target=\"".toList ++ ((markup c.target.element).toList ++ ['"'] ++
    (['>'] ++ (dataText "ports" (c.source.port ++ "->" ++ c.target.port) ++
      '\n' :: "    </edge>".toList))))))))

private theorem run_edgeText (index : Nat) {c : Connection} (source : '"' ∉ c.source.element.toList)
    (target : '"' ∉ c.target.element.toList) :
    run { place := .text } (edgeText index c) =
      some (⟨.tag, "edge"⟩ :: attributeTokens "id" ("e" ++ toString index) ++
        attributeTokens "source" c.source.element ++ attributeTokens "target" c.target.element ++
        dataTokens "ports" (c.source.port ++ "->" ++ c.target.port) ++ [⟨.closing, "edge"⟩],
        { place := .text }) := by
  have opens : run { place := .text } ('\n' :: "    <edge id=\"".toList) =
      some ([⟨.tag, "edge"⟩, ⟨.key, "id"⟩], { place := .value }) := rfl
  have toSource : run { place := .after } " source=\"".toList =
      some ([⟨.key, "source"⟩], { place := .value }) := rfl
  have toTarget : run { place := .after } " target=\"".toList =
      some ([⟨.key, "target"⟩], { place := .value }) := rfl
  have leaves : run { place := .after } ['>'] = some ([], { place := .text }) := by decide
  have index : '"' ∉ ("e" ++ toString index).toList :=
    fun quote => absurd (isNameChar_edge index _ quote) (by decide)
  have arrow : ∃ d ∈ (c.source.port ++ "->" ++ c.target.port).toList, isBlank d = false :=
    ⟨'-', by simp [String.toList_append], rfl⟩
  have ports := run_data "ports" (c.source.port ++ "->" ++ c.target.port) (by decide) arrow
  have closes : run { place := .text } ('\n' :: "    </edge>".toList) =
      some ([⟨.closing, "edge"⟩], { place := .text }) := rfl
  have all := run_trans opens (run_trans (run_value index) (run_trans toSource (run_trans
    (run_value source) (run_trans toTarget (run_trans (run_value target) (run_trans leaves
    (run_trans ports closes)))))))
  rw [edgeText, ← List.cons_append, all]
  simp [attributeTokens]

private theorem flatMap_graphMLEdges (index : Nat) (c : Connection) (rest : List Connection) :
    (graphMLEdges index (c :: rest)).flatMap (fun l => '\n' :: l.toList) =
      edgeText index c ++ (graphMLEdges (index + 1) rest).flatMap fun l => '\n' :: l.toList := by
  have id : markup ("e" ++ toString index) = "e" ++ toString index :=
    markup_name (isNameChar_edge index)
  have ports : markup (c.source.port ++ "->" ++ c.target.port) =
      markup c.source.port ++ "-&gt;" ++ markup c.target.port := by
    rw [markup_append, markup_append]
    rfl
  have key : markup "ports" = "ports" := by decide
  rw [edgeText, id]
  simp [graphMLEdges, dataText, String.toList_append, ports, key]

private theorem run_graphMLEdges (index : Nat) {cs : List Connection}
    (ends : ∀ c ∈ cs, '"' ∉ c.source.element.toList ∧ '"' ∉ c.target.element.toList) :
    run { place := .text } ((graphMLEdges index cs).flatMap fun l => '\n' :: l.toList) =
      some (graphMLEdgeTokens index cs, { place := .text }) := by
  induction cs generalizing index with
  | nil => rfl
  | cons c cs ih =>
    obtain ⟨source, target⟩ := ends c List.mem_cons_self
    rw [flatMap_graphMLEdges, run_trans (run_edgeText index source target)
      (ih (index + 1) fun d hd => ends d (List.mem_cons_of_mem c hd))]
    rfl

private theorem nested_data (names : List String) (key body : String) (ps : List Token) :
    nested names (dataTokens key body ++ ps) = nested names ps := by
  simp [dataTokens, attributeTokens, nested]

private theorem nested_graphMLNodes (names : List String) (a : Activity) (es : List Element)
    (ps : List Token) :
    nested names (es.flatMap (graphMLNodeTokens a) ++ ps) = nested names ps := by
  induction es with
  | nil => rfl
  | cons e es ih =>
    simp [graphMLNodeTokens, attributeTokens, nested, nested_data, ih]

private theorem nested_graphMLEdges (names : List String) (index : Nat) (cs : List Connection)
    (ps : List Token) :
    nested names (graphMLEdgeTokens index cs ++ ps) = nested names ps := by
  induction cs generalizing index with
  | nil => rfl
  | cons c cs ih =>
    simp [graphMLEdgeTokens, attributeTokens, nested, nested_data, ih]

private theorem nested_graphMLTokens (n : Network) (a : Activity) :
    nested [] (n.graphMLTokens a) = true := by
  have head (ps : List Token) : nested [] (graphMLHeadTokens ++ ps) = nested ["graphml"] ps := by
    simp [graphMLHeadTokens, graphMLKeyTokens, attributeTokens, nested]
  simp [graphMLTokens, head, attributeTokens, nested, nested_graphMLNodes, nested_graphMLEdges]

private theorem isReference_variable {e : Element} (h : e.Valid) :
    Element.isReference (Value.field "variable" e.properties) = true := by
  obtain ⟨-, -, -, -, -, ps, hps, faultless⟩ := e.draft.faults_eq_nil_iff.mp h
  obtain rfl : Element.RawProperties.ofTable e.properties = ps := Option.some.inj hps
  simp only [Element.propertyFaults, List.append_eq_nil_iff, faultUnless_eq_nil_iff,
    Element.RawProperties.field_ofTable] at faultless
  exact faultless.1.1.2

private theorem tag?_valid {e : Element} (valid : e.Valid) {v : Value} (tag : e.tag? = some v) :
    (∃ name s, (name, v) ∈ e.properties ∧ v = .text s) ∨ ∃ x, v = .num x := by
  obtain ⟨name, known, field⟩ := List.mem_map.mp (List.mem_of_find?_eq_some tag)
  have shown := List.find?_some tag
  have held : e.properties.value? name = some v := by
    cases value : e.properties.value? name with
    | none =>
      rw [Value.field, value] at field
      rw [← field] at shown
      cases shown
    | some w =>
      rw [Value.field, value] at field
      rw [← field, Option.getD_some]
  have fits : Element.isReference v = true ∨ Element.isQuantity v = true := by
    obtain ⟨preset, operand⟩ := valid.isQuantity
    simp only [List.mem_cons, List.not_mem_nil, or_false] at known
    rw [← field]
    rcases known with rfl | rfl | rfl
    · exact .inl (isReference_variable valid)
    · exact .inr preset
    · exact .inr operand
  cases v with
  | text s => exact .inl ⟨name, s, Table.mem_of_value? held, rfl⟩
  | num x => exact .inr ⟨x, rfl⟩
  | null => cases shown
  | bool b => rcases fits with fits | fits <;> cases fits
  | list items => rcases fits with fits | fits <;> cases fits
  | record entries => rcases fits with fits | fits <;> cases fits

private theorem isLegal_number (x : Number) : IsLegal x.text := by
  intro c hc
  have numeral := x.isNumeral_text c hc
  rw [Number.isNumeral, Bool.or_eq_true] at numeral
  rcases numeral with digit | other
  · have name : Kind.isNameChar c = true := by simp [Kind.isNameChar, Char.isAlphanum, digit]
    exact (nameChar_plain name).2.2
  · simp only [List.contains_eq_mem, decide_eq_true_eq, List.mem_cons, List.not_mem_nil, or_false] at other
    rcases other with rfl | rfl | rfl | rfl | rfl | rfl | rfl | rfl <;> decide

private theorem isLegal_label {e : Element} (valid : e.Valid)
    (legal : ∀ p ∈ e.properties, ∀ s, p.2 = .text s → IsLegal s) : IsLegal e.label := by
  have kind : IsLegal e.kind.name := isLegal_name e.kind.isNameChar_name
  unfold Element.label
  split
  · rename_i v tag
    refine isLegal_append_iff.mpr ⟨isLegal_append_iff.mpr ⟨kind, by decide⟩, ?_⟩
    rcases tag?_valid valid tag with ⟨name, s, held, rfl⟩ | ⟨x, rfl⟩
    · exact legal _ held s rfl
    · exact isLegal_number x
  · exact kind

private theorem isLegal_graphMLNode {e : Element} (id : IsLegal e.id) (label : IsLegal e.label)
    (a : Activity) :
    ∀ l ∈ graphMLNode a e, IsLegal l := by
  have kind : IsLegal e.kind.name := isLegal_name e.kind.isNameChar_name
  have state : IsLegal (a.shade e).name := by cases a.shade e <;> decide
  simp only [graphMLNode, List.forall_mem_cons, isLegal_append_iff, isLegal_markup id,
    isLegal_markup label, kind, state]
  decide

private theorem isLegal_graphMLEdges (index : Nat) {cs : List Connection}
    (h : ∀ c ∈ cs, IsLegal c.source.element ∧ IsLegal c.target.element ∧ IsLegal c.source.port ∧
      IsLegal c.target.port) : ∀ l ∈ graphMLEdges index cs, IsLegal l := by
  induction cs generalizing index with
  | nil => nofun
  | cons c cs ih =>
    obtain ⟨source, target, output, input⟩ := h c List.mem_cons_self
    have id := (isLegal_append_iff.mp (isLegal_name (isNameChar_edge index))).2
    refine List.forall_mem_append.mpr ⟨?_, ih (index + 1) fun d hd => h d (List.mem_cons_of_mem c hd)⟩
    simp only [List.forall_mem_cons, isLegal_append_iff, id, isLegal_markup source,
      isLegal_markup target, isLegal_markup output, isLegal_markup input]
    decide

private theorem isLegal_drawing {n : Network} (valid : n.Valid) (legal : ∀ s ∈ n.texts, IsLegal s)
    (a : Activity) : IsLegal (n.drawing a .graphML) := by
  have id : IsLegal n.id := legal _ List.mem_cons_self
  have ids : ∀ e ∈ n.elements, IsLegal e.id := fun e he =>
    legal _ (List.mem_cons_of_mem _ (List.mem_flatMap.mpr ⟨e, he, List.mem_cons_self⟩))
  have labels : ∀ e ∈ n.elements, IsLegal e.label := by
    refine fun e he => isLegal_label (valid.elements e he) fun p held s text => ?_
    refine legal s (List.mem_cons_of_mem _ (List.mem_flatMap.mpr ⟨e, he, List.mem_cons_of_mem _ ?_⟩))
    exact List.mem_filterMap.mpr ⟨p, held, by rw [text]; rfl⟩
  have wires : ∀ c ∈ n.connections, IsLegal c.source.element ∧ IsLegal c.target.element ∧
      IsLegal c.source.port ∧ IsLegal c.target.port := by
    intro c drawn
    obtain ⟨d, hd, source, -⟩ := valid.coherent.source c drawn
    obtain ⟨e, he, target, -⟩ := valid.coherent.target c drawn
    exact ⟨source ▸ ids d hd, target ▸ ids e he, isLegal_name (valid.coherent.isNameChar_source drawn),
      isLegal_name (valid.coherent.isNameChar_target drawn)⟩
  have graph : IsLegal ("  <graph id=\"" ++ markup n.id ++ "\" edgedefault=\"directed\">") := by
    simp only [isLegal_append_iff, isLegal_markup id]
    decide
  have nodes : ∀ l ∈ n.elements.flatMap (graphMLNode a), IsLegal l := by
    intro l hl
    obtain ⟨e, he, hl⟩ := List.mem_flatMap.mp hl
    exact isLegal_graphMLNode (ids e he) (labels e he) a l hl
  have tail : ∀ l ∈ ["  </graph>", "</graphml>"], IsLegal l := by decide
  refine isLegal_intercalate fun l hl => ?_
  simp only [graphMLLines, List.mem_append, List.mem_singleton] at hl
  rcases hl with (((hl | rfl) | hl) | hl) | hl
  · exact isLegal_graphMLHead l hl
  · exact graph
  · exact nodes l hl
  · exact isLegal_graphMLEdges 0 wires l hl
  · exact tail l hl

section Count

variable {tag : String} {ps : List Token}

private theorem count_attribute (key value : String) :
    (attributeTokens key value ++ ps).count ⟨.tag, tag⟩ = ps.count ⟨.tag, tag⟩ := by
  have others : (attributeTokens key value).count ⟨.tag, tag⟩ = 0 :=
    List.count_eq_zero.mpr (by simp [attributeTokens])
  rw [List.count_append, others, Nat.zero_add]

private theorem count_closing (name : String) :
    (⟨.closing, name⟩ :: ps).count (⟨.tag, tag⟩ : Token) = ps.count ⟨.tag, tag⟩ :=
  List.count_cons_of_ne (by simp)

private theorem count_data (other : tag ≠ "data") (key body : String) :
    (dataTokens key body ++ ps).count ⟨.tag, tag⟩ = ps.count ⟨.tag, tag⟩ := by
  have others : (dataTokens key body).count ⟨.tag, tag⟩ = 0 :=
    List.count_eq_zero.mpr (by simp [dataTokens, attributeTokens, other])
  rw [List.count_append, others, Nat.zero_add]

private theorem count_graphMLNodes (other : tag ≠ "data") (a : Activity) (es : List Element) :
    (es.flatMap (graphMLNodeTokens a) ++ ps).count ⟨.tag, tag⟩ =
      (if tag = "node" then es.length else 0) + ps.count ⟨.tag, tag⟩ := by
  induction es with
  | nil => simp
  | cons e es ih =>
    have first : (e :: es).flatMap (graphMLNodeTokens a) ++ ps =
        ⟨.tag, "node"⟩ :: (attributeTokens "id" e.id ++ (dataTokens "label" e.label ++
          (dataTokens "type" e.kind.name ++ (dataTokens "state" (a.shade e).name ++
            ⟨.closing, "node"⟩ :: (es.flatMap (graphMLNodeTokens a) ++ ps))))) := by
      simp [graphMLNodeTokens]
    rw [first, List.count_cons, count_attribute, count_data other, count_data other, count_data other,
      count_closing, ih]
    by_cases h : tag = "node"
    · subst h
      rw [if_pos rfl, if_pos rfl, if_pos (beq_self_eq_true _), List.length_cons]
      omega
    · rw [if_neg h, if_neg h, if_neg (by simpa using Ne.symm h), Nat.add_zero]

private theorem count_graphMLEdges (other : tag ≠ "data") (index : Nat) (cs : List Connection) :
    (graphMLEdgeTokens index cs ++ ps).count ⟨.tag, tag⟩ =
      (if tag = "edge" then cs.length else 0) + ps.count ⟨.tag, tag⟩ := by
  induction cs generalizing index with
  | nil => simp [graphMLEdgeTokens]
  | cons c cs ih =>
    have first : graphMLEdgeTokens index (c :: cs) ++ ps =
        ⟨.tag, "edge"⟩ :: (attributeTokens "id" ("e" ++ toString index) ++
          (attributeTokens "source" c.source.element ++ (attributeTokens "target" c.target.element ++
            (dataTokens "ports" (c.source.port ++ "->" ++ c.target.port) ++
              ⟨.closing, "edge"⟩ :: (graphMLEdgeTokens (index + 1) cs ++ ps))))) := by
      simp [graphMLEdgeTokens]
    rw [first, List.count_cons, count_attribute, count_attribute, count_attribute, count_data other,
      count_closing, ih]
    by_cases h : tag = "edge"
    · subst h
      rw [if_pos rfl, if_pos rfl, if_pos (beq_self_eq_true _), List.length_cons]
      omega
    · rw [if_neg h, if_neg h, if_neg (by simpa using Ne.symm h), Nat.add_zero]

private theorem count_graphMLTokens (n : Network) (a : Activity) :
    (n.graphMLTokens a).count ⟨.tag, "node"⟩ = n.elements.length ∧
      (n.graphMLTokens a).count ⟨.tag, "edge"⟩ = n.connections.length := by
  have counts (tag : String) (other : tag ≠ "data") (new : graphMLHeadTokens.count ⟨.tag, tag⟩ = 0)
      (graph : tag ≠ "graph") : (n.graphMLTokens a).count ⟨.tag, tag⟩ =
        (if tag = "node" then n.elements.length else 0) +
          (if tag = "edge" then n.connections.length else 0) := by
    have all : n.graphMLTokens a = graphMLHeadTokens ++ ⟨.tag, "graph"⟩ :: (attributeTokens "id" n.id ++
        (attributeTokens "edgedefault" "directed" ++ (n.elements.flatMap (graphMLNodeTokens a) ++
          (graphMLEdgeTokens 0 n.connections ++ [⟨.closing, "graph"⟩, ⟨.closing, "graphml"⟩])))) := by
      simp [graphMLTokens]
    rw [all, List.count_append, new, List.count_cons_of_ne (by simpa using Ne.symm graph),
      count_attribute, count_attribute, count_graphMLNodes other, count_graphMLEdges other,
      count_closing, count_closing, List.count_nil]
    omega
  constructor
  · simpa using counts "node" (by decide) (by decide) (by decide)
  · simpa using counts "edge" (by decide) (by decide) (by decide)

end Count

private theorem graphMLDrawing_shape (n : Network) (a : Activity) : (n.drawing a .graphML).toList =
    (graphMLHead.flatMap fun l => '\n' :: l.toList).tail ++ (('\n' :: "  <graph id=\"".toList) ++
      ((markup n.id).toList ++ '"' :: (" edgedefault=\"directed\">".toList ++
        ((n.elements.flatMap (graphMLNode a)).flatMap (fun l => '\n' :: l.toList) ++
          ((graphMLEdges 0 n.connections).flatMap (fun l => '\n' :: l.toList) ++
            ['\n'] ++ "  </graph>\n</graphml>".toList))))) := by
  have head : (graphMLHead.flatMap fun l => '\n' :: l.toList) ≠ [] := List.cons_ne_nil _ _
  refine Eq.trans ?_ (List.tail_append_of_ne_nil head)
  rw [drawing, Text.toList_intercalate_feed]
  refine congrArg List.tail ?_
  rw [graphMLLines, List.append_assoc, List.append_assoc, List.append_assoc, List.flatMap_append,
    List.append_cancel_left_eq]
  simp [String.toList_append]

private theorem run_graphMLId :
    run { place := .text, read := ['\n'] } ('\n' :: "  <graph id=\"".toList) =
      some ([⟨.tag, "graph"⟩, ⟨.key, "id"⟩], { place := .value }) := rfl

private theorem run_graphMLDirected :
    run { place := .after } " edgedefault=\"directed\">".toList =
      some (attributeTokens "edgedefault" "directed", { place := .text }) := rfl

private theorem run_graphMLTail :
    run { place := .text } (['\n'] ++ "  </graph>\n</graphml>".toList) =
      some ([⟨.closing, "graph"⟩, ⟨.closing, "graphml"⟩], { place := .text }) := rfl

/-- What is read of a drawing in GraphML is, with one node for each element and one edge for each wire, the id
of the network, the id, the label, the kind and the state of each element, and the ends and the ports of each
wire, exactly if no quote stands in the id of the network or of an element. -/
theorem read_drawing_iff {n : Network} (valid : n.Valid) (legal : ∀ s ∈ n.texts, IsLegal s)
    (a : Activity) :
    (read (n.drawing a .graphML) = some (n.graphMLTokens a) ↔
      '"' ∉ n.id.toList ∧ ∀ e ∈ n.elements, '"' ∉ e.id.toList) ∧
    (n.graphMLTokens a).count ⟨.tag, "node"⟩ = n.elements.length ∧
    (n.graphMLTokens a).count ⟨.tag, "edge"⟩ = n.connections.length := by
  refine ⟨?_, count_graphMLTokens n a⟩
  have tokens : n.graphMLTokens a = graphMLHeadTokens ++ ([⟨.tag, "graph"⟩, ⟨.key, "id"⟩] ++
      (⟨.value, n.id⟩ :: (attributeTokens "edgedefault" "directed" ++
        (n.elements.flatMap (graphMLNodeTokens a) ++ (graphMLEdgeTokens 0 n.connections ++
          [⟨.closing, "graph"⟩, ⟨.closing, "graphml"⟩]))))) := by
    simp [graphMLTokens, attributeTokens]
  rw [read_eq_some_iff, and_iff_right (isLegal_drawing valid legal a),
    and_iff_left (nested_graphMLTokens n a), graphMLDrawing_shape, tokens,
    reads_append_iff run_graphMLHead, reads_append_iff run_graphMLId, reads_value_iff,
    reads_append_iff run_graphMLDirected, reads_graphMLNodes_iff]
  refine and_congr_right fun _ => and_iff_left_of_imp fun noQuotes => ?_
  have ends : ∀ c ∈ n.connections, '"' ∉ c.source.element.toList ∧ '"' ∉ c.target.element.toList := by
    intro c drawn
    obtain ⟨d, hd, source, -⟩ := valid.coherent.source c drawn
    obtain ⟨e, he, target, -⟩ := valid.coherent.target c drawn
    exact ⟨source ▸ noQuotes d hd, target ▸ noQuotes e he⟩
  rw [List.append_assoc, reads_append_iff (run_graphMLEdges 0 ends)]
  exact ⟨_, run_graphMLTail, rfl⟩

/-- A bell and a lamp with markup in their names and labels, and quotes in the labels only. -/
def taggedBell : Network where
  id := "<hall> & <porch>"
  elements :=
    [{ id := "bell<1>", kind := .contact, properties := [("variable", .text "\"A\" & B > C")] },
      { id := "lamp&2", kind := .coil, properties := [("variable", .text "</data>")] }]
  connections := [⟨⟨"bell<1>", "out"⟩, ⟨"lamp&2", "in"⟩⟩]

private theorem valid_taggedBell : taggedBell.Valid := by decide

/-- Markup in names and labels is read as it is, and so are quotes in labels. -/
theorem read_taggedBell :
    taggedBell.Valid ∧ (∀ s ∈ taggedBell.texts, IsLegal s) ∧
      read (taggedBell.drawing [("lamp&2", true)] .graphML) =
        some (taggedBell.graphMLTokens [("lamp&2", true)]) := by
  have legal : ∀ s ∈ taggedBell.texts, IsLegal s := by decide
  have noQuotes : '"' ∉ taggedBell.id.toList ∧ ∀ e ∈ taggedBell.elements, '"' ∉ e.id.toList :=
    ⟨by decide, by simp [taggedBell]⟩
  exact ⟨valid_taggedBell, legal,
    (read_drawing_iff valid_taggedBell legal [("lamp&2", true)]).1.mpr noQuotes⟩

/-- One contact, with an id that ends its value. -/
def quotedLamp : Network where
  id := "hall"
  elements := [{ id := "lamp\" class=\"bell", kind := .contact }]
  connections := []

private theorem valid_quotedLamp : quotedLamp.Valid := by decide

/-- The node of the contact has another id, and an attribute that it is not to have. -/
theorem read_quotedLamp :
    let found := graphMLHeadTokens ++ ([⟨.tag, "graph"⟩, ⟨.key, "id"⟩] ++ ([⟨.value, "hall"⟩] ++
      (attributeTokens "edgedefault" "directed" ++ ([⟨.tag, "node"⟩, ⟨.key, "id"⟩] ++
      ([⟨.value, "lamp"⟩, ⟨.key, "class"⟩, ⟨.value, "bell"⟩] ++ ((dataTokens "label" "contact" ++
        (dataTokens "type" "contact" ++ (dataTokens "state" "unknown" ++ [⟨.closing, "node"⟩]))) ++
          [⟨.closing, "graph"⟩, ⟨.closing, "graphml"⟩]))))))
    quotedLamp.Valid ∧ (∀ s ∈ quotedLamp.texts, IsLegal s) ∧
      read (quotedLamp.drawing [] .graphML) = some found ∧ found ≠ quotedLamp.graphMLTokens [] := by
  intro found
  have legal : ∀ s ∈ quotedLamp.texts, IsLegal s := by decide
  refine ⟨valid_quotedLamp, legal, ?_, by decide⟩
  refine read_eq_some_iff.mpr ⟨isLegal_drawing valid_quotedLamp legal [], ?_, by decide⟩
  let lamp : Element := { id := "lamp\" class=\"bell", kind := .contact }
  obtain ⟨rest, shape, others⟩ := graphMLNode_shape [] lamp
  have label : lamp.label = "contact" := by decide
  rw [label] at others
  have text : (quotedLamp.drawing [] .graphML).toList =
      (graphMLHead.flatMap fun l => '\n' :: l.toList).tail ++ (('\n' :: "  <graph id=\"".toList) ++
        (((markup "hall").toList ++ ['"']) ++ (" edgedefault=\"directed\">".toList ++
          (('\n' :: "    <node id=\"".toList) ++ (((markup lamp.id).toList ++ ['"']) ++
            (rest ++ (['\n'] ++ "  </graph>\n</graphml>".toList))))))) := by
    have nodes : (quotedLamp.elements.flatMap (graphMLNode [])).flatMap (fun l => '\n' :: l.toList) =
        ('\n' :: "    <node id=\"".toList) ++ ((markup lamp.id).toList ++ '"' :: rest) := by
      rw [← shape]
      simp [quotedLamp, lamp]
    rw [graphMLDrawing_shape, nodes]
    simp only [quotedLamp, graphMLEdges, List.flatMap_nil, List.nil_append, List.append_assoc,
      List.cons_append]
  have opens : run { place := .text } ('\n' :: "    <node id=\"".toList) =
      some ([⟨.tag, "node"⟩, ⟨.key, "id"⟩], { place := .value }) := rfl
  have values : run { place := .value } ((markup lamp.id).toList ++ ['"']) =
      some ([⟨.value, "lamp"⟩, ⟨.key, "class"⟩, ⟨.value, "bell"⟩], { place := .after }) := by
    rw [markup, String.toList_ofList]
    decide
  have title := run_value (s := "hall") (by decide)
  have all := run_trans run_graphMLHead (run_trans run_graphMLId (run_trans title
    (run_trans run_graphMLDirected (run_trans opens (run_trans values
      (run_trans others run_graphMLTail))))))
  refine ⟨{ place := .text }, ?_, rfl⟩
  rw [text]
  exact all

end Network

end RungLogic
