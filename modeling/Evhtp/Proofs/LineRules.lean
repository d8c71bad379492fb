import Evhtp.Proofs.HeadFields

/-! Proof rules for a turn of the parser, in terms of what holds between the hooks of one line and of what holds after
the last of them. Between two hooks the parser leaves alone the flags that calls on it set. The hooks that begin and end
a message, and the one that ends its head, have rules of their own. -/

namespace Evhtp

structure SameFlags (p p' : Parser) : Prop where
  paused : p'.flags.paused = p.flags.paused
  skipBody : p'.flags.skipBody = p.flags.skipBody

def HookName.hurried : HookName → Bool
  | .method | .scheme | .host | .port | .path | .args | .uri | .hdrKey | .hostname => true
  | _ => false

def HookName.closing : HookName → Bool
  | .onHdrsBegin | .hdrVal | .onNewChunk | .onChunkComplete | .onChunksComplete | .body => true
  | _ => false

/-- `going` holds before each hook of a line, `over` after the line. -/
structure LineRules {σ : Type} (H : Hooks σ) (going gone : Scan σ → Prop) : Prop where
  ends : ∀ {s}, going s → gone s
  quiet : ∀ {s p}, going s → SameFlags s.p p → going { s with p }
  settled : ∀ {s p}, gone s → SameFlags s.p p → gone { s with p }
  hurries : ∀ {s name} data, name.hurried = true → going s →
    gone (hook H name data s).2 ∧ ((hook H name data s).1 = true → going (hook H name data s).2)
  closes : ∀ {s name} data, name.closing = true → going s → gone (hook H name data s).2

theorem noteField_sameFlags [Htstring] (name value : Bytes) (p : Parser) : SameFlags p (noteField name value p).2 :=
  ⟨(noteField_checked name value p).silent.paused, noteField_skipBody name value p⟩

theorem framing_sameFlags (p : Parser) : SameFlags p (framing p).2 :=
  ⟨(framing_checked p).silent.paused, framing_skipBody p⟩

theorem skipByte_sameFlags (p : Parser) (byte : UInt8) : SameFlags p (skipByte p byte).2 := by
  unfold skipByte
  dsimp only
  split
  · split <;> exact ⟨rfl, rfl⟩
  · exact ⟨rfl, rfl⟩

namespace LineRules

variable {σ : Type} {H : Hooks σ} {going gone : Scan σ → Prop} {s : Scan σ}

/-- A step inside a line: others may follow if it succeeds. -/
structure Onward (going gone : Scan σ → Prop) (result : Bool × Scan σ) : Prop where
  gone : gone result.2
  goes : result.1 = true → going result.2

theorem Onward.andThen {first : Bool × Scan σ} {next : Scan σ → Bool × Scan σ} (onward : Onward going gone first)
    (follows : ∀ s, going s → Onward going gone (next s)) : Onward going gone (andThen first next) := by
  unfold Evhtp.andThen
  split
  · next ok => exact follows _ (onward.goes ok)
  · exact onward

theorem Onward.andThen_over {first : Bool × Scan σ} {next : Scan σ → Bool × Scan σ} (onward : Onward going gone first)
    (follows : ∀ s, going s → gone (next s).2) : gone (Evhtp.andThen first next).2 := by
  unfold Evhtp.andThen
  split
  · next ok => exact follows _ (onward.goes ok)
  · exact onward.gone

section
variable (rules : LineRules H going gone)
include rules

theorem failed (held : gone s) (error : ParseError) : Onward going gone (s.fail error) :=
  ⟨rules.settled held ⟨rfl, rfl⟩, nofun⟩

theorem onward (held : going s) : Onward going gone (true, s) := ⟨rules.ends held, fun _ => held⟩

theorem hurry {name : HookName} (hurried : name.hurried = true) (data : Bytes) (held : going s) :
    Onward going gone (hook H name data s) :=
  ⟨(rules.hurries data hurried held).1, (rules.hurries data hurried held).2⟩

theorem emitHostPort (uri : ParsedUri) (held : going s) : Onward going gone (emitHostPort H uri s) := by
  refine (rules.hurry rfl _ held).andThen fun s held => ?_
  split
  · split
    · exact rules.hurry rfl _ held
    · exact rules.onward held
  · exact rules.onward held

theorem emitOriginForm (t : Bytes) (held : going s) : Onward going gone (emitOriginForm H t s) := by
  have schemed : going (s.setScheme .none) := rules.quiet held ⟨rfl, rfl⟩
  unfold Evhtp.emitOriginForm
  refine (rules.hurry rfl _ schemed).andThen fun s held => ?_
  refine Onward.andThen ?_ fun s held => rules.hurry rfl _ held
  split
  · exact rules.onward held
  · exact rules.hurry rfl _ held

theorem parseStatusLine (line : Bytes) (held : going s) : Onward going gone (parseStatusLine line s) := by
  unfold Evhtp.parseStatusLine
  split
  · exact rules.failed (rules.ends held) _
  · split
    · exact rules.failed (rules.ends held) _
    · dsimp only
      split
      · split
        · split
          · exact rules.failed (rules.ends (rules.quiet held (by exact ⟨rfl, rfl⟩))) _
          · exact rules.onward (rules.quiet held (by exact ⟨rfl, rfl⟩))
        · exact rules.failed (rules.ends (rules.quiet held (by exact ⟨rfl, rfl⟩))) _
      · exact rules.failed (rules.ends (rules.quiet held (by exact ⟨rfl, rfl⟩))) _

theorem parseDelimited (data : Bytes) (held : going s) : gone (parseDelimited H data s).1 := by
  have counted : ∀ {result : Bool × Scan σ} n, gone result.2 → gone (countDelimited n result) := by
    intro result n held
    unfold countDelimited
    split
    · exact rules.settled held ⟨rfl, rfl⟩
    · exact held
  apply counted
  split
  · exact rules.closes _ rfl held
  · exact rules.ends held

theorem parseSizeLine (data : Bytes) (held : going s) : gone (parseSizeLine H data s).1 := by
  unfold Evhtp.parseSizeLine
  split
  · exact rules.ends held
  · exact (rules.failed (rules.ends held) _).gone
  · split
    · exact (rules.failed (rules.ends held) _).gone
    · dsimp only
      split
      · exact rules.closes _ rfl (rules.quiet held (by exact ⟨rfl, rfl⟩))
      · exact rules.closes _ rfl (rules.quiet held (by exact ⟨rfl, rfl⟩))

theorem parseChunkData (data : Bytes) (held : going s) : gone (parseChunkData H data s).1 := by
  have hooked : gone (hook H .body (data.take (s.p.chunkPiece data)) s).2 := rules.closes _ rfl held
  unfold Evhtp.parseChunkData countChunk
  dsimp only
  split
  · exact rules.settled hooked ⟨rfl, rfl⟩
  · exact hooked

theorem parseChunkEnd (data : Bytes) (held : going s) : gone (parseChunkEnd H data s).1 := by
  unfold Evhtp.parseChunkEnd
  split
  · split
    · exact rules.ends held
    · exact (rules.failed (rules.ends held) _).gone
  · exact (rules.failed (rules.ends held) _).gone
  · split
    · exact (rules.failed (rules.ends held) _).gone
    · exact rules.closes _ rfl (rules.quiet held (by exact ⟨rfl, rfl⟩))

theorem parseBody (data : Bytes) (held : going s) : gone (parseBody H data s).1 := by
  unfold Evhtp.parseBody
  split
  · exact rules.parseDelimited data held
  · exact rules.parseDelimited data held
  · split
    · exact rules.parseSizeLine data held
    · exact rules.parseChunkData data held
    · exact rules.parseChunkEnd data held
  · exact rules.settled (rules.ends held) ⟨rfl, rfl⟩

variable [Htstring]

theorem emitAbsoluteForm (t : Bytes) (uri : ParsedUri) (held : going s) :
    Onward going gone (emitAbsoluteForm H t uri s) := by
  have schemed : going (s.setScheme (schemeFrom uri.scheme)) := rules.quiet held ⟨rfl, rfl⟩
  unfold Evhtp.emitAbsoluteForm
  dsimp only
  split
  · exact rules.failed (rules.ends schemed) _
  · refine (rules.hurry rfl _ schemed).andThen fun s held => ?_
    refine (rules.emitHostPort uri held).andThen fun s held => ?_
    refine (rules.hurry rfl _ held).andThen fun s held => ?_
    refine Onward.andThen ?_ fun s held => rules.hurry rfl _ held
    split
    · exact rules.hurry rfl _ held
    · exact rules.onward held

theorem emitTarget (t : Bytes) (held : going s) : Onward going gone (emitTarget H t s) := by
  have schemed : going (s.setScheme .none) := rules.quiet held ⟨rfl, rfl⟩
  unfold Evhtp.emitTarget
  split
  · exact rules.emitOriginForm t held
  · split
    · exact (rules.hurry rfl _ schemed).andThen fun s held => rules.hurry rfl _ held
    · dsimp only
      split
      · exact rules.failed (rules.ends held) _
      · split
        · refine (rules.emitHostPort _ schemed).andThen fun s held => ?_
          exact (rules.hurry rfl _ held).andThen fun s held => rules.hurry rfl _ held
        · exact rules.emitAbsoluteForm t _ held

theorem parseRequestLine (line : Bytes) (held : going s) : Onward going gone (parseRequestLine H line s) := by
  have known : going { s with p := { s.p with method := methodFrom (nextToken line).1 } } := rules.quiet held ⟨rfl, rfl⟩
  unfold Evhtp.parseRequestLine
  dsimp only
  split
  · exact rules.failed (rules.ends known) _
  · split
    · exact rules.failed (rules.ends known) _
    · split
      · exact rules.failed (rules.ends known) _
      · refine Onward.andThen ?_ fun s held => rules.emitTarget _ held
        exact rules.hurry rfl _ (rules.quiet held (by exact ⟨rfl, rfl⟩))

theorem noteHeader (name value : Bytes) (held : going s) : Onward going gone (noteHeader H name value s) := by
  unfold Evhtp.noteHeader
  split
  · split
    · exact rules.hurry rfl _ (rules.quiet held (by exact ⟨rfl, rfl⟩))
    · exact rules.onward held
  · have noted : going { s with p := (noteField name value s.p).2 } := rules.quiet held (noteField_sameFlags name value s.p)
    exact ⟨rules.ends noted, fun _ => noted⟩

theorem parseHeader (line : Bytes) (trailer : Bool) (held : going s) : gone (parseHeader H line trailer s).2 := by
  unfold Evhtp.parseHeader
  extract_lets name
  split
  · exact (rules.failed (rules.ends held) _).gone
  · split
    · exact (rules.failed (rules.ends held) _).gone
    · refine (rules.hurry rfl _ held).andThen_over fun s held => ?_
      refine Onward.andThen_over ?_ fun s held => rules.closes _ rfl held
      split
      · exact rules.onward held
      · exact rules.noteHeader _ _ held

theorem parseHeadLine (line : Bytes) (held : going s) :
    gone (parseHeadLine H line s) ∨
      ((s.p.state ≠ .headLine ∧ s.p.state ≠ .trailers) ∧ parseHeadLine H line s = endHead H s) := by
  unfold Evhtp.parseHeadLine
  split
  · refine .inl ?_
    have started : Onward going gone (parseStartLine H line s) := by
      unfold parseStartLine
      split
      · exact rules.parseRequestLine line held
      · exact rules.parseStatusLine line held
    dsimp only
    split
    · next ok => exact rules.closes _ rfl (rules.quiet (started.goes ok) (by exact ⟨rfl, rfl⟩))
    · exact started.gone
  · next notLine =>
    split
    · split
      · exact .inl (rules.settled (rules.ends held) ⟨rfl, rfl⟩)
      · next notTrailers => exact .inr ⟨⟨notLine, notTrailers⟩, rfl⟩
    · refine .inl ?_
      split
      · exact (rules.failed (rules.ends held) _).gone
      · exact rules.parseHeader line _ (rules.quiet held (by exact ⟨rfl, rfl⟩))

theorem turn {data : Bytes} {after : Scan σ × Nat} (held : going s) (begun : s.p.state ≠ .start)
    (undone : s.p.state ≠ .complete) (taken : turn H s data = some after) :
    gone after.1 ∨ (s.p.state = .headers ∧ after.1 = endHead H s) := by
  cases turn_cases H taken with
  | skips here => exact absurd here begun
  | begins here => exact absurd here begun
  | tooLong => exact .inl (rules.failed (rules.ends held) _).gone
  | line here =>
    refine (rules.parseHeadLine _ held).imp_right fun ended => ⟨?_, ended.2⟩
    simpa [ParserState.inHead, ended.1] using here
  | body => exact .inl (rules.parseBody data held)
  | finishes here => exact absurd here undone

end

end LineRules

end Evhtp
