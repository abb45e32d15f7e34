import SelectiveTrace.Error
import SelectiveTrace.Format.Document

/-! What a run is configured with: the fields and their standard values, their reading from a
document, the checks on them, and the values that the tracers go by. -/
namespace SelectiveTrace

structure Region where
  file : Path
  start : Nat
  stop : Nat
deriving DecidableEq

structure TracerConfig where
  /-- How many call levels are traced below a target, itself included. -/
  depth : Nat := 1
  /-- Put in front of every line. -/
  linePrefix : String := ""
  /-- How many hits of one line are shown in one frame; zero sets no limit. -/
  loopLimit : Option Nat := none
  /-- The level below the traced ones shows its calls and returns. -/
  depthExpanded : Bool := true
  /-- Values are cut to this many characters; zero sets no limit. -/
  maxLength : Option Nat := some 100
  /-- Addresses and directories are left out. -/
  normalize : Bool := false
  /-- Lines begin with the thread. -/
  threadInfo : Bool := false
  /-- Traces this region instead of targets. -/
  observed : Option Region := none
  /-- Collects a call graph instead of writing lines; it may have an output file. -/
  callGraph : Option (Option Path) := none
  watch : List String := []
  watchExplode : List String := []

structure Config where
  tracer : TracerConfig := {}
  /-- How many changes of a line in one frame a history tells in full. -/
  historyLoop : Nat := 4
  maxFiles : Nat := 256

def summaryLength : Nat := 100

namespace TracerConfig

def validate (c : TracerConfig) (disk : Disk) : Except Error Unit := do
  if c.depth < 1 then throw (.config .depthZero)
  if c.normalize && c.threadInfo then throw (.config .normalizedThreads)
  match c.observed with
  | some r =>
    if r.stop < r.start then throw (.config (.invertedRange r.start r.stop))
    if !disk.pathExists r.file then throw (.config (.missingFile r.file))
  | none => pure ()

def expands (c : TracerConfig) : Bool :=
  c.depthExpanded && c.callGraph.isNone

/-- The level that is expanded is counted on top of the depth, and a machine word may not hold the
sum. -/
def overflows (c : TracerConfig) : Bool :=
  c.expands && UInt64.size ≤ c.depth + 1

def lengthLimit (c : TracerConfig) : Option Nat :=
  c.maxLength.filter (0 < ·)

def hitLimit (c : TracerConfig) : Option Nat :=
  c.loopLimit.filter (0 < ·)

end TracerConfig

open Document

def Region.ofDocument? (exact : Bool) (d : Document) : Option Region := do
  match ← d.fields? exact ["file", "start_line", "end_line"] with
  | [some file, some start, some stop] =>
    return ⟨⟨← file.asString?⟩, ← start.asNat? 32, ← stop.asNat? 32⟩
  | _ => none

def Path.ofDocument? (d : Document) : Option Path :=
  d.asString?.map Path.mk

def outputOfDocument? (exact : Bool) (d : Document) : Option (Option Path) := do
  match ← d.fields? exact ["output"] with
  | [output] => orDefault none (asOptional? Path.ofDocument?) output
  | _ => none

def TracerConfig.ofDocument? (exact : Bool) (d : Document) : Option TracerConfig := do
  let standard : TracerConfig := {}
  match ← d.fields? exact ["depth", "prefix", "loop", "depth_expanded", "max_variable_length",
      "normalize", "thread_info", "observed", "call_graph", "watch", "watch_explode"] with
  | [depth, start, loop, expanded, length, normalize, threads, observed, graph, watch, explode] =>
    return {
      depth := ← orDefault standard.depth (asNat? 64) depth
      linePrefix := ← orDefault standard.linePrefix asString? start
      loopLimit := ← orDefault standard.loopLimit (asOptional? (asNat? 32)) loop
      depthExpanded := ← orDefault standard.depthExpanded asBool? expanded
      maxLength := ← orDefault standard.maxLength (asOptional? (asNat? 64)) length
      normalize := ← orDefault standard.normalize asBool? normalize
      threadInfo := ← orDefault standard.threadInfo asBool? threads
      observed := ← orDefault none (asOptional? (Region.ofDocument? exact)) observed
      callGraph := ← orDefault none (asOptional? (outputOfDocument? exact)) graph
      watch := ← orDefault [] (asList? asString?) watch
      watchExplode := ← orDefault [] (asList? asString?) explode }
  | _ => none

def soleField? {α : Type} (exact : Bool) (name : String) (standard : α)
    (read : Document → Option α) (d : Document) : Option α := do
  match ← d.fields? exact [name] with
  | [field] => orDefault standard read field
  | _ => none

def Config.ofDocument? (exact : Bool) (d : Document) : Option Config := do
  let standard : Config := {}
  match ← d.fields? exact ["tracer", "history", "source_cache"] with
  | [tracer, history, cache] =>
    return {
      tracer := ← orDefault {} (TracerConfig.ofDocument? exact) tracer
      historyLoop := ← orDefault standard.historyLoop
        (soleField? exact "loop" standard.historyLoop (asNat? 32)) history
      maxFiles := ← orDefault standard.maxFiles
        (soleField? exact "max_files" standard.maxFiles (asNat? 64)) cache }
  | _ => none

def Region.toDocument (r : Region) : Document :=
  .table [("file", .str r.file.text), ("start_line", .int r.start), ("end_line", .int r.stop)]

def TracerConfig.toDocument (c : TracerConfig) : Document :=
  .table [
    ("depth", .int c.depth), ("prefix", .str c.linePrefix),
    ("loop", ofOption (fun n : Nat => .int n) c.loopLimit),
    ("depth_expanded", .bool c.depthExpanded),
    ("max_variable_length", ofOption (fun n : Nat => .int n) c.maxLength),
    ("normalize", .bool c.normalize), ("thread_info", .bool c.threadInfo),
    ("observed", ofOption Region.toDocument c.observed),
    ("call_graph", ofOption (fun output : Option Path =>
      .table [("output", ofOption (fun p => .str p.text) output)]) c.callGraph),
    ("watch", .list (c.watch.map .str)), ("watch_explode", .list (c.watchExplode.map .str))]

def Config.toDocument (c : Config) : Document :=
  .table [("tracer", c.tracer.toDocument),
    ("history", .table [("loop", .int c.historyLoop)]),
    ("source_cache", .table [("max_files", .int c.maxFiles)])]

end SelectiveTrace
