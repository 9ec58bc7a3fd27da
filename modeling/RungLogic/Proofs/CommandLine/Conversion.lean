import RungLogic.Proofs.Build.Documents
import RungLogic.Proofs.CommandLine.Reports
import RungLogic.Proofs.Workspace.Files

/-!
Conversions from file to file. A program that is converted to a network and back comes out as what
is traced from the network that it builds, whether it is kept as text or as a document; and what
cannot be loaded leaves all files as they were. It is taken for granted that documents can be read back,
so their reader does not give up on what has been written.
-/

set_option autoImplicit false
set_option relaxedAutoImplicit false

namespace RungLogic

namespace Workspace

variable {w : Workspace} {path content : String} {p : Program} {n : Network}

private theorem ok_bind {α β : Type} {x : Except Error α} {a : α} (h : x = .ok a)
    (f : α → Except Error β) : (x >>= f) = f a := by
  rw [h]
  rfl

private theorem Holds.loadProgram (h : w.Holds path content) (keeps : keepsText path = true)
    (parsed : Program.parse content = .ok p) : w.loadProgram path = .ok p := by
  rw [Workspace.loadProgram, if_pos keeps, ok_bind h.normal.read, Program.parse_readText, parsed]

theorem Holds.read_written {v : Value} (h : w.Holds path (Json.write v)) (exact : Json.Exact v) :
    w.read path = .ok (Json.write v) := by
  have plain : ∀ c ∈ (Json.write v).toList, c ≠ '\r' := Json.writeAt_ne_return v 0 exact
  rw [h.read, Text.readText_eq plain]

/-- The reader of documents gives up on none that has been written. -/
def ReadsBack (w : Workspace) : Prop := ∀ v, w.givesUp (Json.write v) = none

theorem Holds.readDocument {v : Value} (h : w.Holds path (Json.write v)) (back : w.ReadsBack)
    (exact : Json.Exact v) : w.readDocument (Path.normal path) = .ok v := by
  rw [Workspace.readDocument, ok_bind (h.normal.read_written exact), back v]
  exact Json.read_write exact

private theorem Writable.saveNetwork (h : w.Writable path) (n : Network) :
    w.saveNetwork path n = .ok (w.withFile path (Json.write n.document)) := by
  rw [Workspace.saveNetwork, h.normal.write, withFile_normal]

private theorem Writable.loadNetwork (h : w.Writable path) (back : w.ReadsBack) (valid : n.Valid)
    (exact : Json.Exact n.document) :
    (w.withFile path (Json.write n.document)).loadNetwork path = .ok n := by
  rw [Workspace.loadNetwork, ok_bind ((h.holds _).readDocument back exact)]
  exact Network.ofDocument_document valid

private theorem Writable.saveProgram (h : w.Writable path) (p : Program) :
    w.saveProgram path p = .ok (w.withFile path (programText path p)) := by
  rw [Workspace.saveProgram, h.normal.write, withFile_normal]

private theorem Writable.loadProgram (h : w.Writable path) (back : w.ReadsBack)
    (canonical : ∀ i ∈ p, i.Canonical) :
    (w.withFile path (programText path p)).loadProgram path = .ok p := by
  cases keeps : keepsText path with
  | true =>
    refine (h.holds _).loadProgram keeps ?_
    rw [programText, if_pos keeps]
    exact Program.parse_text_feed canonical
  | false =>
    have written : programText path p = Json.write p.document := by simp [programText, keeps]
    rw [written, Workspace.loadProgram, keeps, if_neg Bool.false_ne_true,
      ok_bind ((h.holds _).readDocument back p.exact_document)]
    exact Program.ofDocument_document fun i hi => (canonical i hi).valid

end Workspace

namespace CommandLine

/-- The arguments convert one file into another, and ask for nothing else. -/
structure Arguments.Converts (a : Arguments) (direction : Direction) (input output : String) :
    Prop where
  direction : (a.value? .convert).bind Direction.ofName? = some direction
  input : a.value? .input = some input
  output : a.value? .output = some output
  simulate : a.value? .simulate = none
  drawing : a.value? .drawing = none
  config : a.value? .config = none
  help : a.has .help = false
  extra : a.extra = []

/-- Arguments for a conversion, in a workspace without settings where documents are read back. -/
def Asks (w : Workspace) (arguments : List String) (direction : Direction)
    (input output : String) : Prop :=
  w.findSettings "." = none ∧ w.ReadsBack ∧ ∃ a, Arguments.parse arguments = some a ∧
    a.Converts direction input output

variable {w : Workspace} {a : Arguments} {direction : Direction} {input output content : String}

namespace Arguments.Converts

private theorem text?_convert (h : a.Converts direction input output) :
    (a.text? .convert).bind Direction.ofName? = some direction := by
  obtain ⟨name, given, named⟩ := Option.bind_eq_some_iff.mp h.direction
  have some : name ≠ "" := by
    rintro rfl
    cases named
  simp [Arguments.text?, given, Option.filter, some, named]

private theorem filesFit_eq (h : a.Converts direction input output) (there : w.Holds input content)
    (writable : w.Writable output) : filesFit w a = true := by
  have given := there.writable.ne_empty
  simp [filesFit, h.input, h.output, h.simulate, h.drawing, h.config, there.reached,
    there.noDirectory, writable.noDirectory, given, there.isFile]

private theorem usable_eq (h : a.Converts direction input output) (there : w.Holds input content)
    (writable : w.Writable output) : usable w a = true := by
  obtain ⟨name, given, named⟩ := Option.bind_eq_some_iff.mp h.direction
  simp [usable, given, named, h.filesFit_eq there writable, h.extra]

private theorem settingsFor_eq (h : a.Converts direction input output) (unset : w.findSettings "." = none) :
    settingsFor w a = .ok ({}, []) := by
  simp [settingsFor, Arguments.text?, h.config, unset]

private theorem run_eq {arguments : List String} (h : a.Converts direction input output)
    (parsed : Arguments.parse arguments = some a) (unset : w.findSettings "." = none)
    (clock : Clock) (lines : List String) :
    run w arguments clock lines = if usable w a then convert w a {} [] direction
      else { status := .ok 1, workspace := w, complaints := [usage] } := by
  have follows : follow w a clock = .ended (convert w a {} [] direction) := by
    simp only [follow, h.settingsFor_eq unset, levelFault?_default, h.text?_convert]
  cases fits : usable w a <;>
    simp [run, runFor, planFor, Parsing.ofArguments, parsed, h.help, fits, follows]

end Arguments.Converts

def Ending.Writes (e : Ending) (w : Workspace) (output text : String) : Prop :=
  e.status = .ok 0 ∧ e.workspace = w.withFile output text

/-- Leaves all files as they were and ends with status 1. An error that gets past the command line ends
the process with the same status; it comes of a document that nests too deep for its reader. -/
def Ending.Refuses (e : Ending) (w : Workspace) : Prop :=
  (e.status = .ok 1 ∨ e.status = .error (.value .tooDeep) ∧ ∃ path, w.TooDeep path) ∧ e.workspace = w

private theorem refuses_fail (w : Workspace) (verbose : Bool) (notices : List Notice) {e : Error}
    (h : isReported e = true ∨ e = .value .tooDeep ∧ ∃ path, w.TooDeep path) :
    (fail w verbose [] notices e).Refuses w := by
  rcases h with reported | ⟨rfl, deep⟩
  · simp [fail, reported, Ending.Refuses]
  · exact ⟨.inr ⟨rfl, deep⟩, rfl⟩

/-- The input of a conversion cannot be loaded. -/
def Unloadable (w : Workspace) (direction : Direction) (input : String) : Prop :=
  match direction with
  | .programToNetwork => ∃ e, w.loadProgram input = .error e
  | .networkToProgram => ∃ e, w.loadNetwork input = .error e

variable {p : Program} {n : Network} {arguments : List String}

private theorem convertProgram_writes (loaded : w.loadProgram input = .ok p)
    (built : (p.build {}).1 = .ok n) (writable : w.Writable output) (notices : List Notice)
    (verbose : Bool) :
    (convertProgram w input output notices verbose).Writes w output (Json.write n.document) := by
  have saved : (p.build {}).1.bind (w.saveNetwork output) =
      .ok (w.withFile output (Json.write n.document)) := by
    rw [built, Except.bind, writable.saveNetwork]
  unfold convertProgram
  rw [loaded]
  dsimp only
  rw [saved]
  exact ⟨rfl, rfl⟩

private theorem convertNetwork_writes (loaded : w.loadNetwork input = .ok n) {o : TraceOptions}
    (traced : n.writtenTrace o = .ok p) (writable : w.Writable output) (notices : List Notice)
    (verbose : Bool) :
    (convertNetwork w input output o notices verbose).Writes w output
      (Workspace.programText output p) := by
  unfold convertNetwork
  rw [loaded]
  dsimp only
  rw [traced]
  dsimp only
  rw [writable.saveProgram]
  exact ⟨rfl, rfl⟩

private theorem convert_refuses (h : Unloadable w direction input)
    (given : a.text? .input = some input ∨ a.text? .input = none) (settings : Settings)
    (notices : List Notice) : (convert w a settings notices direction).Refuses w := by
  unfold convert
  split
  · rename_i path output path_given output_given
    have same : path = input := by
      rcases given with given | given <;> rw [given] at path_given
      · exact (Option.some.inj path_given).symm
      · cases path_given
    subst same
    cases direction with
    | programToNetwork =>
      obtain ⟨e, failed⟩ := h
      unfold convertProgram
      rw [failed]
      exact refuses_fail w _ notices ((Workspace.loadProgram_error failed).imp_right fun deep =>
        ⟨deep.1, _, deep.2.2⟩)
    | networkToProgram =>
      obtain ⟨e, failed⟩ := h
      unfold convertNetwork
      rw [failed]
      exact refuses_fail w _ notices ((Workspace.loadNetwork_error failed).imp_right fun deep =>
        ⟨deep.1, _, deep.2⟩)
  · exact ⟨.inl rfl, rfl⟩

private theorem run_convert (asks : Asks w arguments direction input output)
    (there : w.Holds input content) (writable : w.Writable output) (clock : Clock)
    (lines : List String) : ∃ a, a.text? .input = some input ∧ a.text? .output = some output ∧
      run w arguments clock lines = convert w a {} [] direction := by
  obtain ⟨unset, -, a, parsed, h⟩ := asks
  have input_some := there.writable.ne_empty
  have output_some := writable.ne_empty
  refine ⟨a, ?_, ?_, ?_⟩
  · simp [Arguments.text?, h.input, Option.filter, input_some]
  · simp [Arguments.text?, h.output, Option.filter, output_some]
  · rw [h.run_eq parsed unset, if_pos (h.usable_eq there writable)]

private theorem program_to_network (asks : Asks w arguments .programToNetwork input output)
    (there : w.Holds input content) (writable : w.Writable output)
    (loaded : w.loadProgram input = .ok p) (built : (p.build {}).1 = .ok n) (clock : Clock)
    (lines : List String) :
    (run w arguments clock lines).Writes w output (Json.write n.document) := by
  obtain ⟨a, given, wanted, runs⟩ := run_convert asks there writable clock lines
  simp only [runs, convert, given, wanted]
  exact convertProgram_writes loaded built writable _ _

private theorem network_to_program (asks : Asks w arguments .networkToProgram input output)
    (there : w.Holds input content) (writable : w.Writable output)
    (loaded : w.loadNetwork input = .ok n) (traced : n.writtenTrace {} = .ok p) (clock : Clock)
    (lines : List String) :
    (run w arguments clock lines).Writes w output (Workspace.programText output p) := by
  obtain ⟨a, given, wanted, runs⟩ := run_convert asks there writable clock lines
  simp only [runs, convert, given, wanted]
  exact convertNetwork_writes loaded traced writable _ _

private theorem unloadable_refused (asks : Asks w arguments direction input output)
    (h : Unloadable w direction input) (clock : Clock) (lines : List String) :
    (run w arguments clock lines).Refuses w := by
  obtain ⟨unset, -, a, parsed, converts⟩ := asks
  have given : a.text? .input = some input ∨ a.text? .input = none := by
    by_cases empty : input = "" <;>
      simp [Arguments.text?, converts.input, Option.filter, empty]
  rw [converts.run_eq parsed unset]
  split
  · exact convert_refuses h given _ _
  · exact ⟨.inl rfl, rfl⟩

/-- Conversions are faithful from file to file. A program that is read from a text is converted into
a file from which the network that it builds is loaded, and that file into one from which the trace
of the network is loaded, whatever the ending of its path. What cannot be loaded is refused, and no
file is touched. -/
theorem conversions_faithful :
    (∀ (w : Workspace) (arguments : List String) (clock : Clock) (lines : List String)
      (input output content : String) (p : Program),
      Asks w arguments .programToNetwork input output → Workspace.keepsText input = true →
      w.Holds input content → w.Writable output → Program.parse content = .ok p →
      ∃ n text, (p.build {}).1 = .ok n ∧ (run w arguments clock lines).Writes w output text ∧
        (w.withFile output text).loadNetwork output = .ok n ∧
        ∀ (arguments : List String) (clock : Clock) (lines : List String) (path : String),
          Asks (w.withFile output text) arguments .networkToProgram output path →
          (w.withFile output text).Writable path →
          ∃ traced,
            (run (w.withFile output text) arguments clock lines).Writes (w.withFile output text)
              path traced ∧
            ((w.withFile output text).withFile path traced).loadProgram path =
              .ok (n.trace {})) ∧
    ∀ (w : Workspace) (arguments : List String) (clock : Clock) (lines : List String)
      (direction : Direction) (input output : String),
      Asks w arguments direction input output → Unloadable w direction input →
      (run w arguments clock lines).Refuses w := by
  refine ⟨?_, ?_⟩
  · intro w arguments clock lines input output content p asks keeps there writable parsed
    obtain ⟨id, next, built⟩ := p.build_eq {}
    have traced := p.trace_laids {} id {}
    generalize Network.mk id (laidElements (p.laids {})) (laidWires (p.laids {})) = n at built traced
    have build : (p.build {}).1 = .ok n := by rw [built]
    have loaded := there.loadProgram keeps parsed
    have back : w.ReadsBack := asks.2.1
    have again := writable.loadNetwork back (Program.valid_of_build build) (Program.exact_of_build build)
    have written : n.writtenTrace {} = .ok (n.trace {}) := Program.writtenTrace_of_build build {}
    refine ⟨n, Json.write n.document, build,
      program_to_network asks there writable loaded build clock lines, again, ?_⟩
    intro arguments clock lines path asks open_
    have canonical : ∀ i ∈ n.trace {}, i.Canonical := by
      rw [traced]
      exact Program.canonical_normalizeFrom (Program.canonical_of_parse parsed) false
    exact ⟨_, network_to_program asks (writable.holds _) open_ again written clock lines,
      open_.loadProgram back canonical⟩
  · intro w arguments clock lines direction input output asks unloadable
    exact unloadable_refused asks unloadable clock lines

/-- A timer without a preset has one when it comes back; a text that is no document is refused. -/
theorem valve_conversions :
    let w : Workspace := { files := [("valve.il", "LD X1\n\nTON\nST Y1"), ("cut.json", "[")] }
    (∃ n text, (Program.build [⟨.ld, some "X1", none⟩, ⟨.ton, none, none⟩, ⟨.st, some "Y1", none⟩]
        {}).1 = .ok n ∧
      (run w ["-i", "valve.il", "-o", "valve.json", "-c", "il2ld"] {} []).Writes w
        "valve.json" text ∧
      (w.withFile "valve.json" text).loadNetwork "valve.json" = .ok n ∧
      ∃ traced,
        (run (w.withFile "valve.json" text) ["-c", "ld2il", "--input=valve.json", "-oback.TXT"]
          {} []).Writes (w.withFile "valve.json" text) "back.TXT" traced ∧
        ((w.withFile "valve.json" text).withFile "back.TXT" traced).loadProgram "back.TXT" =
          .ok [⟨.ld, some "X1", none⟩, ⟨.ton, some "T#1s", none⟩, ⟨.st, some "Y1", none⟩]) ∧
    (run w ["-i", "cut.json", "-o", "valve.il", "-c", "ld2il"] {} []).Refuses w := by
  intro w
  let p : Program := [⟨.ld, some "X1", none⟩, ⟨.ton, none, none⟩, ⟨.st, some "Y1", none⟩]
  obtain ⟨faithful, refused⟩ := conversions_faithful
  have asks : Asks w ["-i", "valve.il", "-o", "valve.json", "-c", "il2ld"] .programToNetwork
      "valve.il" "valve.json" := by
    refine ⟨by decide, fun _ => rfl, _, rfl, ?_⟩
    constructor <;> rfl
  have there : w.Holds "valve.il" "LD X1\n\nTON\nST Y1" := by constructor <;> decide
  have open_ : w.Writable "valve.json" := by constructor <;> decide
  have keeps : Workspace.keepsText "valve.il" = true := by
    have ending : Path.lowerEnding "valve.il" = ".il" := by
      rw [Path.lowerEnding, ← String.toList_inj, String.toList_map]
      decide
    rw [Workspace.keepsText, ending]
    decide
  obtain ⟨n, text, built, writes, loaded, back⟩ :=
    faithful w _ {} [] _ _ _ p asks keeps there open_ rfl
  refine ⟨⟨n, text, built, writes, loaded, ?_⟩, ?_⟩
  · have again : Asks (w.withFile "valve.json" text)
        ["-c", "ld2il", "--input=valve.json", "-oback.TXT"] .networkToProgram "valve.json"
        "back.TXT" := by
      refine ⟨by rfl, fun _ => rfl, _, rfl, ?_⟩
      constructor <;> rfl
    have free : (w.withFile "valve.json" text).Writable "back.TXT" := by
      have files : w.withFile "valve.json" text =
          { files := [("valve.il", "LD X1\n\nTON\nST Y1"), ("cut.json", "["),
            ("valve.json", text)] } := by rfl
      rw [files]
      refine ⟨by rfl, ?_⟩
      simp only [Workspace.isDirectory, List.any_cons, List.any_nil]
      rfl
    obtain ⟨traced, writes, loaded⟩ := back _ {} [] "back.TXT" again free
    refine ⟨traced, writes, ?_⟩
    obtain ⟨id, next, result⟩ := p.build_eq {}
    have same : ⟨id, laidElements (p.laids {}), laidWires (p.laids {})⟩ = n := by
      rw [result] at built
      exact Except.ok.inj built
    rw [loaded, ← same, p.trace_laids {} id {}]
    rfl
  · refine refused w _ {} [] .networkToProgram "cut.json" "valve.il" ⟨by decide, fun _ => rfl, _, rfl, ?_⟩ ?_
    · constructor <;> rfl
    · exact ⟨.json .value ⟨1, 2, 1⟩, by rfl⟩

end CommandLine

end RungLogic
