import ArenaPeak.Json.Slots
import ArenaPeak.Report
import ArenaPeak.Trace

/-!
How configurations, traces and report views are written as JSON, and how the first two are read.
Each record is written with all its fields, in the order in which they are declared.
-/

namespace ArenaPeak

open Json

def ArenaTag.toJson (t : ArenaTag) : Json :=
  .str t.name

def ArenaTag.ofJson? : Json → Option ArenaTag :=
  name? ofName?

def CompilerKind.toJson (k : CompilerKind) : Json :=
  .str k.name

def CompilerKind.ofJson? : Json → Option CompilerKind :=
  name? ofName?

def StatMode.toJson (m : StatMode) : Json :=
  .str m.name

def StatMode.ofJson? : Json → Option StatMode :=
  name? ofName?

/-- A thread is written as its number alone. -/
def ThreadId.toJson (t : ThreadId) : Json :=
  ofWord t.number

def ThreadId.ofJson? (j : Json) : Option ThreadId :=
  (word? j).map ThreadId.mk

namespace MethodPattern

def toJson (p : MethodPattern) : Json :=
  .obj [("class", .str p.owner), ("method", .str p.name)]

def ofJson? (j : Json) : Option MethodPattern := do
  match ← slots ["class", "method"] j with
  | [owner, name] => return ⟨← required str? owner, ← required str? name⟩
  | _ => none

end MethodPattern

namespace StatCommand

def toJson (c : StatCommand) : Json :=
  .obj [("mode", c.mode.toJson), ("pattern", c.pattern.toJson)]

def ofJson? (j : Json) : Option StatCommand := do
  match ← slots ["mode", "pattern"] j with
  | [mode, pattern] =>
      return ⟨← required StatMode.ofJson? mode, ← required MethodPattern.ofJson? pattern⟩
  | _ => none

end StatCommand

namespace StatConfig

def toJson (c : StatConfig) : Json :=
  .obj
    [ ("enabled", .bool c.enabled),
      ("commands", Json.ofList StatCommand.toJson c.commands),
      ("human_readable", .bool c.humanReadable),
      ("min_size", ofWord c.minSize),
      ("threads", ofWord c.threads) ]

def ofJson? (j : Json) : Option StatConfig := do
  match ← slots ["enabled", "commands", "human_readable", "min_size", "threads"] j with
  | [enabled, commands, humanReadable, minSize, threads] =>
      return ⟨← required bool? enabled, ← required (list? StatCommand.ofJson?) commands,
        ← required bool? humanReadable, ← required word? minSize, ← required word? threads⟩
  | _ => none

end StatConfig

namespace Directive

def toJson (d : Directive) : Json :=
  .obj [("collect", .bool d.collect), ("print", .bool d.print)]

def ofJson? (j : Json) : Option Directive := do
  match ← slots ["collect", "print"] j with
  | [collect, print] => return ⟨← defaulted false bool? collect, ← defaulted false bool? print⟩
  | _ => none

end Directive

namespace PeakSnapshot

def toJson (p : PeakSnapshot) : Json :=
  .obj
    [ ("total", ofWord p.total),
      ("node_bytes", ofWord p.nodeBytes),
      ("resource_bytes", ofWord p.resourceBytes),
      ("live_nodes", ofHalfWord p.liveNodes) ]

def ofJson? (j : Json) : Option PeakSnapshot := do
  match ← slots ["total", "node_bytes", "resource_bytes", "live_nodes"] j with
  | [total, nodeBytes, resourceBytes, liveNodes] =>
      return ⟨← required word? total, ← required word? nodeBytes, ← required word? resourceBytes,
        ← required halfWord? liveNodes⟩
  | _ => none

end PeakSnapshot

namespace TraceEvent

def toJson (e : TraceEvent) : Json :=
  .obj
    [ ("delta", ofSignedWord e.delta),
      ("tag", e.tag.toJson),
      ("live_nodes", ofOption ofHalfWord e.liveNodes) ]

def ofJson? (j : Json) : Option TraceEvent := do
  match ← slots ["delta", "tag", "live_nodes"] j with
  | [delta, tag, liveNodes] =>
      return ⟨← required signedWord? delta, ← required ArenaTag.ofJson? tag,
        ← defaulted none (nullable halfWord?) liveNodes⟩
  | _ => none

end TraceEvent

namespace TraceCompilation

def toJson (c : TraceCompilation) : Json :=
  .obj
    [ ("class", .str c.owner),
      ("method", .str c.method),
      ("signature", .str c.signature),
      ("compiler", c.compiler.toJson),
      ("directive", ofOption Directive.toJson c.directive),
      ("events", Json.ofList TraceEvent.toJson c.events) ]

def ofJson? (j : Json) : Option TraceCompilation := do
  match ← slots ["class", "method", "signature", "compiler", "directive", "events"] j with
  | [owner, method, signature, compiler, directive, events] =>
      return ⟨← required str? owner, ← required str? method, ← required str? signature,
        ← defaulted .c1 CompilerKind.ofJson? compiler,
        ← defaulted none (nullable Directive.ofJson?) directive,
        ← defaulted [] (list? TraceEvent.ofJson?) events⟩
  | _ => none

end TraceCompilation

namespace Trace

def toJson (t : Trace) : Json :=
  .obj
    [ ("threads", ofOption ofWord t.threads),
      ("compilations", Json.ofList TraceCompilation.toJson t.compilations) ]

def ofJson? (j : Json) : Option Trace := do
  match ← slots ["threads", "compilations"] j with
  | [threads, compilations] =>
      return ⟨← defaulted none (nullable word?) threads,
        ← required (list? TraceCompilation.ofJson?) compilations⟩
  | _ => none

end Trace

namespace RecordView

/-- The fields of a view in the order of their names. -/
def toJson (v : RecordView) : Json :=
  .obj
    [ ("kind", v.kind.toJson),
      ("live_nodes_at_peak", ofHalfWord v.liveNodesAtPeak),
      ("method", .str v.method),
      ("node_at_peak", ofWord v.nodeAtPeak),
      ("recompilations", ofHalfWord v.recompilations),
      ("resource_at_peak", ofWord v.resourceAtPeak),
      ("thread", ofOption ThreadId.toJson v.thread),
      ("time", .float v.time.shortest),
      ("total", ofWord v.total) ]

end RecordView

namespace Service

/-- The report for other programs, as JSON. -/
def jsonReport (s : Service) (order : Arrangement) (minSize : UInt64) : Json :=
  Json.ofList RecordView.toJson (s.views order minSize)

end Service

end ArenaPeak
