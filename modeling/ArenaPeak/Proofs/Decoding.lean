import ArenaPeak.Proofs.WrittenForms

/-!
Decoding undoes encoding. What the writer makes of a value is proper JSON and one of the ways to
write the value, so its text is read as that value again, and so is every text that differs from it
in the order of its fields, in undeclared fields or in leaving the names of the fields out.
-/

namespace ArenaPeak

open Json

namespace Json

section Written

variable {α : Type} {toJson : α → Json} {Written : α → Json → Prop}

theorem listed_ofList (each : ∀ a, Written a (toJson a)) (as : List α) :
    Listed Written as (ofList toJson as) :=
  .items as _ (List.forall₂_map_right_iff.mpr (List.forall₂_same.mpr fun a _ => each a))

theorem nullable_ofOption (each : ∀ a, Written a (toJson a)) (o : Option α) :
    Nullable Written o (ofOption toJson o) := by
  cases o with
  | none => exact .null
  | some a => exact .given a _ (each a)

theorem proper_ofList (each : ∀ a, (toJson a).Proper) (as : List α) :
    (ofList toJson as).Proper := by
  refine .arr _ fun item mem => ?_
  obtain ⟨a, -, rfl⟩ := List.mem_map.mp mem
  exact each a

theorem proper_ofOption (each : ∀ a, (toJson a).Proper) (o : Option α) :
    (ofOption toJson o).Proper := by
  cases o with
  | none => exact .null
  | some a => exact each a

end Written

/-! ### Texts -/

/-- The value that a text is read as. -/
def decode {α : Type} (ofJson? : Json → Option α) (text : String) : Option α :=
  (read text).bind ofJson?

section Codecs

variable {α : Type}

/-- A writer of proper JSON and a reader that finds a value in all the ways to write it and in no
others, the writer's among them. -/
structure Codec (toJson : α → Json) (ofJson? : Json → Option α) (Written : α → Json → Prop) :
    Prop where
  exact : ∀ a j, ofJson? j = some a ↔ Written a j
  canonical : ∀ a, Written a (toJson a)
  proper : ∀ a, (toJson a).Proper

/-- A codec of records, which are written as objects with the declared names. -/
structure RecordCodec (names : List String) (items : α → List Json)
    (Fills : α → List (Option Json) → Prop) (toJson : α → Json) (ofJson? : Json → Option α) :
    Prop where
  distinct : names.Nodup
  full : ∀ a, (items a).length = names.length
  named : ∀ a, toJson a = .obj (names.zip (items a))
  fills : ∀ a, Fills a ((items a).map some)
  proper : ∀ a, ∀ j ∈ items a, j.Proper
  exact : ∀ a j, ofJson? j = some a ↔ Record names (Fills a) j

/-- Decoding undoes encoding, whichever way a value is written. -/
structure Restores (toJson : α → Json) (ofJson? : Json → Option α) (Written : α → Json → Prop) :
    Prop where
  written : ∀ a, decode ofJson? (compact (toJson a)) = some a
  rewritten : ∀ a j, Written a j → j.Proper → decode ofJson? (compact j) = some a
  /-- A text is accepted if it holds one of the ways to write the value. -/
  accepted : ∀ a text, decode ofJson? text = some a ↔ ∃ j, read text = some j ∧ Written a j
  /-- To write what a text is read as and to read that again changes nothing. -/
  settled : ∀ text, (decode ofJson? text).bind (fun a => decode ofJson? (compact (toJson a))) =
    decode ofJson? text

/-- A record is also restored from its fields in any order with undeclared ones between them, and
from the array of its fields. -/
structure RestoresRecord (names : List String) (toJson : α → Json) (ofJson? : Json → Option α)
    (Written : α → Json → Prop) : Prop extends Restores toJson ofJson? Written where
  fields : ∀ a, ∃ items, items.length = names.length ∧ toJson a = .obj (names.zip items) ∧
    decode ofJson? (compact (.arr items)) = some a ∧
    ∀ extra fields, (∀ f ∈ extra, f.1 ∉ names ∧ f.2.Proper) →
      fields.Perm (names.zip items ++ extra) →
      decode ofJson? (compact (.obj fields)) = some a

variable {toJson : α → Json} {ofJson? : Json → Option α} {Written : α → Json → Prop}

theorem decode_eq_some (codec : Codec toJson ofJson? Written) (a : α) (text : String) :
    decode ofJson? text = some a ↔ ∃ j, read text = some j ∧ Written a j := by
  rw [decode, Option.bind_eq_some_iff]
  simp only [codec.exact]

theorem Codec.rewritten (codec : Codec toJson ofJson? Written) {a : α} {j : Json}
    (h : Written a j) (proper : j.Proper) : decode ofJson? (compact j) = some a :=
  (decode_eq_some codec a _).mpr ⟨j, read_compact proper, h⟩

theorem Codec.restores (codec : Codec toJson ofJson? Written) :
    Restores toJson ofJson? Written where
  written a := codec.rewritten (codec.canonical a) (codec.proper a)
  rewritten _ _ := codec.rewritten
  accepted := decode_eq_some codec
  settled text := by
    simp only [codec.rewritten (codec.canonical _) (codec.proper _)]
    cases decode ofJson? text with
    | none => rfl
    | some a => rfl

namespace RecordCodec

variable {names : List String} {items : α → List Json} {Fills : α → List (Option Json) → Prop}

theorem canonical (h : RecordCodec names items Fills toJson ofJson?) (a : α) :
    Record names (Fills a) (toJson a) := by
  rw [h.named]
  exact record_zip h.distinct (h.full a) (h.fills a)

theorem codec (h : RecordCodec names items Fills toJson ofJson?) :
    Codec toJson ofJson? fun a => Record names (Fills a) where
  exact := h.exact
  canonical := h.canonical
  proper a := by
    rw [h.named]
    exact .obj _ fun _ mem => h.proper a _ (List.of_mem_zip mem).2

theorem restores (h : RecordCodec names items Fills toJson ofJson?) :
    RestoresRecord names toJson ofJson? fun a => Record names (Fills a) where
  toRestores := h.codec.restores
  fields a := by
    have written : Record names (Fills a) (.obj (names.zip (items a))) := h.named a ▸ h.canonical a
    refine ⟨items a, h.full a, h.named a, ?_, ?_⟩
    · exact h.codec.rewritten (written.unnamed h.distinct (h.full a)) (.arr _ (h.proper a))
    · intro extra fields undeclared perm
      refine h.codec.rewritten (written.shuffle (fun f mem => (undeclared f mem).1) perm) ?_
      refine .obj _ fun f mem => ?_
      cases List.mem_append.mp (perm.subset mem) with
      | inl declared => exact h.proper a _ (List.of_mem_zip declared).2
      | inr other => exact (undeclared f other).2

end RecordCodec

/-- A codec of values with a fixed set of names. -/
theorem codec_named {name : α → String} {ofName? : String → Option α}
    (back : ∀ a, ofName? (name a) = some a) :
    Codec (fun a => .str (name a)) (name? ofName?) (NamedBy ofName?) where
  exact := name?_eq_some ofName?
  canonical a := .alone _ (back a)
  proper _ := .str _

end Codecs

end Json

/-! ### Configurations and traces -/

theorem StatMode.codec : Codec toJson ofJson? (NamedBy ofName?) :=
  codec_named ofName?_name

theorem ArenaTag.codec : Codec toJson ofJson? (NamedBy ofName?) :=
  codec_named ofName?_name

theorem CompilerKind.codec : Codec toJson ofJson? (NamedBy ofName?) :=
  codec_named ofName?_name

theorem ThreadId.codec : Codec toJson ofJson? fun t j => j = ofWord t.number where
  exact := ofJson?_eq_some
  canonical _ := rfl
  proper _ := .int _

namespace MethodPattern

def items (p : MethodPattern) : List Json :=
  [.str p.owner, .str p.name]

theorem recordCodec : RecordCodec fieldNames items Fills toJson ofJson? where
  distinct := by decide
  full _ := rfl
  named _ := rfl
  fills _ := .slots
  proper p := by
    simp only [items, List.forall_mem_cons]
    exact ⟨.str _, .str _, List.forall_mem_nil _⟩
  exact := ofJson?_eq_some

end MethodPattern

namespace StatCommand

def items (c : StatCommand) : List Json :=
  [c.mode.toJson, c.pattern.toJson]

theorem recordCodec : RecordCodec fieldNames items Fills toJson ofJson? where
  distinct := by decide
  full _ := rfl
  named _ := rfl
  fills c := .slots _ _ (StatMode.codec.canonical _) (MethodPattern.recordCodec.canonical _)
  proper c := by
    simp only [items, List.forall_mem_cons]
    exact ⟨StatMode.codec.proper _, MethodPattern.recordCodec.codec.proper _,
      List.forall_mem_nil _⟩
  exact := ofJson?_eq_some

end StatCommand

namespace StatConfig

def items (c : StatConfig) : List Json :=
  [.bool c.enabled, ofList StatCommand.toJson c.commands, .bool c.humanReadable, ofWord c.minSize,
    ofWord c.threads]

theorem recordCodec : RecordCodec fieldNames items Fills toJson ofJson? where
  distinct := by decide
  full _ := rfl
  named _ := rfl
  fills c := .slots _ (listed_ofList StatCommand.recordCodec.canonical _)
  proper c := by
    simp only [items, List.forall_mem_cons]
    exact ⟨.bool _, proper_ofList StatCommand.recordCodec.codec.proper _, .bool _, .int _, .int _,
      List.forall_mem_nil _⟩
  exact := ofJson?_eq_some

end StatConfig

namespace Directive

def items (d : Directive) : List Json :=
  [.bool d.collect, .bool d.print]

theorem recordCodec : RecordCodec fieldNames items Fills toJson ofJson? where
  distinct := by decide
  full _ := rfl
  named _ := rfl
  fills d := .slots _ _ (.given _ _ rfl) (.given _ _ rfl)
  proper d := by
    simp only [items, List.forall_mem_cons]
    exact ⟨.bool _, .bool _, List.forall_mem_nil _⟩
  exact := ofJson?_eq_some

end Directive

namespace PeakSnapshot

def items (p : PeakSnapshot) : List Json :=
  [ofWord p.total, ofWord p.nodeBytes, ofWord p.resourceBytes, ofHalfWord p.liveNodes]

theorem recordCodec : RecordCodec fieldNames items Fills toJson ofJson? where
  distinct := by decide
  full _ := rfl
  named _ := rfl
  fills _ := .slots
  proper p := by
    simp only [items, List.forall_mem_cons]
    exact ⟨.int _, .int _, .int _, .int _, List.forall_mem_nil _⟩
  exact := ofJson?_eq_some

end PeakSnapshot

namespace TraceEvent

def items (e : TraceEvent) : List Json :=
  [ofSignedWord e.delta, e.tag.toJson, ofOption ofHalfWord e.liveNodes]

theorem recordCodec : RecordCodec fieldNames items Fills toJson ofJson? where
  distinct := by decide
  full _ := rfl
  named _ := rfl
  fills e := .slots _ _ (ArenaTag.codec.canonical _)
    (.given _ (ofOption ofHalfWord e.liveNodes) (nullable_ofOption (fun _ => by rfl) _))
  proper e := by
    simp only [items, List.forall_mem_cons]
    exact ⟨.int _, ArenaTag.codec.proper _, proper_ofOption (fun _ => .int _) _,
      List.forall_mem_nil _⟩
  exact := ofJson?_eq_some

end TraceEvent

namespace TraceCompilation

def items (c : TraceCompilation) : List Json :=
  [.str c.owner, .str c.method, .str c.signature, c.compiler.toJson,
    ofOption Directive.toJson c.directive, ofList TraceEvent.toJson c.events]

theorem recordCodec : RecordCodec fieldNames items Fills toJson ofJson? where
  distinct := by decide
  full _ := rfl
  named _ := rfl
  fills c := .slots _ _ _ (.given _ _ (CompilerKind.codec.canonical _))
    (.given _ _ (nullable_ofOption Directive.recordCodec.canonical _))
    (.given _ _ (listed_ofList TraceEvent.recordCodec.canonical _))
  proper c := by
    simp only [items, List.forall_mem_cons]
    exact ⟨.str _, .str _, .str _, CompilerKind.codec.proper _,
      proper_ofOption Directive.recordCodec.codec.proper _,
      proper_ofList TraceEvent.recordCodec.codec.proper _, List.forall_mem_nil _⟩
  exact := ofJson?_eq_some

end TraceCompilation

namespace Trace

def items (t : Trace) : List Json :=
  [ofOption ofWord t.threads, ofList TraceCompilation.toJson t.compilations]

theorem recordCodec : RecordCodec fieldNames items Fills toJson ofJson? where
  distinct := by decide
  full _ := rfl
  named _ := rfl
  fills t := .slots _ _
    (.given _ (ofOption ofWord t.threads) (nullable_ofOption (fun _ => by rfl) _))
    (listed_ofList TraceCompilation.recordCodec.canonical _)
  proper t := by
    simp only [items, List.forall_mem_cons]
    exact ⟨proper_ofOption (fun _ => .int _) _,
      proper_ofList TraceCompilation.recordCodec.codec.proper _, List.forall_mem_nil _⟩
  exact := ofJson?_eq_some

end Trace

/-- Decoding undoes encoding for every type of configurations and traces. -/
structure DecodingUndoesEncoding : Prop where
  statConfig : RestoresRecord StatConfig.fieldNames StatConfig.toJson StatConfig.ofJson?
    StatConfig.Written
  statCommand : RestoresRecord StatCommand.fieldNames StatCommand.toJson StatCommand.ofJson?
    StatCommand.Written
  statMode : Restores StatMode.toJson StatMode.ofJson? (NamedBy StatMode.ofName?)
  methodPattern : RestoresRecord MethodPattern.fieldNames MethodPattern.toJson
    MethodPattern.ofJson? MethodPattern.Written
  directive : RestoresRecord Directive.fieldNames Directive.toJson Directive.ofJson?
    Directive.Written
  arenaTag : Restores ArenaTag.toJson ArenaTag.ofJson? (NamedBy ArenaTag.ofName?)
  compilerKind : Restores CompilerKind.toJson CompilerKind.ofJson? (NamedBy CompilerKind.ofName?)
  threadId : Restores ThreadId.toJson ThreadId.ofJson? fun t j => j = ofWord t.number
  peakSnapshot : RestoresRecord PeakSnapshot.fieldNames PeakSnapshot.toJson PeakSnapshot.ofJson?
    PeakSnapshot.Written
  trace : RestoresRecord Trace.fieldNames Trace.toJson Trace.ofJson? Trace.Written
  traceCompilation : RestoresRecord TraceCompilation.fieldNames TraceCompilation.toJson
    TraceCompilation.ofJson? TraceCompilation.Written
  traceEvent : RestoresRecord TraceEvent.fieldNames TraceEvent.toJson TraceEvent.ofJson?
    TraceEvent.Written

theorem decoding_undoes_encoding : DecodingUndoesEncoding where
  statConfig := StatConfig.recordCodec.restores
  statCommand := StatCommand.recordCodec.restores
  statMode := StatMode.codec.restores
  methodPattern := MethodPattern.recordCodec.restores
  directive := Directive.recordCodec.restores
  arenaTag := ArenaTag.codec.restores
  compilerKind := CompilerKind.codec.restores
  threadId := ThreadId.codec.restores
  peakSnapshot := PeakSnapshot.recordCodec.restores
  trace := Trace.recordCodec.restores
  traceCompilation := TraceCompilation.recordCodec.restores
  traceEvent := TraceEvent.recordCodec.restores

example : decode ArenaTag.ofJson? "\"na\"" = some .node := by decide

example : decode Directive.ofJson? "[true]" = some ⟨true, false⟩ := by decide

end ArenaPeak
