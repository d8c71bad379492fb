import Evhtp.Proofs.Head
import Evhtp.Proofs.BodySections
import Evhtp.Request

/-! Reading messages back. Hooks that collect what they are given turn the parser into a reader of whole
messages; here is what it reads from a response head and from the body that follows. -/

namespace Evhtp

/-- Hooks that accept whatever they are called with, and only take note of it. -/
structure Hooks.Notes {σ : Type} (H : Hooks σ) (note : HookEvent → Parser → σ → σ) : Prop where
  present : ∀ name, H.present name = true
  call : ∀ event p s, H.call event p s = ({}, note event p s)

structure NotesFields {σ : Type} (note : HookEvent → Parser → σ → σ) (add : σ → Field → σ) : Prop where
  host : ∀ data p s, note ⟨.hostname, data⟩ p s = s
  field : ∀ (field : Field) p q s, note ⟨.hdrVal, field.value⟩ q (note ⟨.hdrKey, field.name⟩ p s) = add s field

section
variable {σ : Type} {H : Hooks σ} {note : HookEvent → Parser → σ → σ} (notes : H.Notes note)
include notes

theorem Hooks.Notes.attentive : H.Attentive := fun event p s => ⟨false, congrArg Prod.fst (notes.call event p s)⟩

theorem Hooks.Notes.hook (name : HookName) (data : Bytes) (s : Scan σ) :
    Evhtp.hook H name data s = (true, ⟨s.p, note ⟨name, data⟩ s.p s.user⟩) := by
  simp [Evhtp.hook, notes.present, notes.call, Parser.replied]

theorem complete_noted [Htstring] {p : Parser} (user : σ) (rest : Bytes) (here : p.state = .complete)
    (running : p.flags.paused = false) : Decoder.Next (resumedTurn H) (⟨p, user⟩, rest)
      (⟨p.finish, note ⟨.onMsgComplete, []⟩ p.finish user⟩, rest) :=
  complete_next rest here (notes.hook _ _ _) running

variable [Htstring] {add : σ → Field → σ} (fieldwise : NotesFields note add)
include fieldwise

theorem noteHeader_noted (name value : Bytes) (s : Scan σ) : (noteHeader H name value s).2.user = s.user := by
  rw [noteHeader]
  split
  · split
    · rw [notes.hook]
      exact fieldwise.host _ _ _
    · rfl
  · rfl

theorem parseHeader_noted (field : Field) {s : Scan σ} (taken : (parseHeader H field.line false s).1 = true) :
    (parseHeader H field.line false s).2.user = add s.user field := by
  rw [parseHeader, field.line_name.1, field.line_name.2] at taken ⊢
  dsimp only at taken ⊢
  rw [if_neg field.line_wellFormed.2, trimBlanks_padded field.trimmed.2 field.blank] at taken ⊢
  simp only [andThen, notes.hook, if_true, Bool.false_eq_true, if_false] at taken ⊢
  split
  next ok =>
    simp only [noteHeader_noted notes fieldwise]
    exact fieldwise.field field _ _ _
  next failed =>
    rw [if_neg failed] at taken
    exact absurd taken failed

theorem fields_noted (fields : List Field) {s : Scan σ} (rest : Bytes) (here : s.p.state = .headers)
    (running : s.p.flags.paused = false)
    (lines : ∀ field ∈ fields, s.p.config.maxLineLength = 0 ∨ field.line.length ≤ s.p.config.maxLineLength)
    (count : s.p.config.maxHeaderCount = 0 ∨ s.p.headerCount + fields.length ≤ s.p.config.maxHeaderCount)
    (taken : (s.p.takeFields fields).1 = true) :
    Decoder.Steps (resumedTurn H) (s, fieldBytes fields ++ rest)
      (⟨(s.p.takeFields fields).2, fields.foldl add s.user⟩, rest) := by
  induction fields generalizing s with
  | nil => exact .refl
  | cons field fields ih =>
    have next := field_turn notes.attentive field (fieldBytes fields ++ rest) here running
      (lines field (by simp)) (by rw [List.length_cons] at count; omega)
    have bytes : fieldBytes (field :: fields) ++ rest = field.bytes ++ (fieldBytes fields ++ rest) := by
      simp [fieldBytes]
    have step := takeField_taken field.name field.value here
    simp only [Parser.takeFields] at taken ⊢
    by_cases ok : (s.p.takeField field.name field.value).1 = true
    · rw [if_pos ok] at taken ⊢
      have accepted := (parseHeader_attentive notes.attentive field (s := { s with p := s.p.countHeader })
        (Parser.resume_of_running running)).1.trans ok
      rw [parseHeader_noted notes fieldwise field accepted] at next
      have reached := step.state
      rw [if_pos ok, here] at reached
      rw [bytes]
      refine .head next (ih (s := ⟨(s.p.takeField field.name field.value).2, add s.user field⟩) reached
        (step.paused.trans running) ?_ ?_ taken)
      · intro field member
        rw [step.config]
        exact lines field (by simp [member])
      · dsimp only
        rw [List.length_cons] at count
        rw [step.config, step.count]
        omega
    · rw [if_neg ok] at taken
      exact absurd taken ok

theorem headEnd_noted {head : Head} {p q : Parser} (user : σ) (only : StartOnly p.begin q) (here : q.state = .headers)
    (running : q.flags.paused = false) (within : head.Within p.config) {framed : Parser}
    (found : q.headFraming head.fields = some framed) (rest : Bytes) :
    framed.flags.paused = false ∧ framed.error = q.error ∧
      Decoder.Steps (resumedTurn H) (⟨q, user⟩, fieldBytes head.fields ++ (head.empty.bytes ++ rest))
        (⟨framed, note ⟨.onHdrsComplete, []⟩ framed (head.fields.foldl add user)⟩, rest) := by
  have config : q.config = p.config := (congrArg Parser.config only :)
  have count : q.headerCount = 0 := (congrArg Parser.headerCount only :)
  have skip : q.flags.skipBody = false := (congrArg (fun p => p.flags.skipBody) only :)
  rw [Parser.headFraming, Option.ite_none_right_eq_some] at found
  obtain ⟨⟨taken, framable⟩, done⟩ := found
  have fits : q.config.maxHeaderCount = 0 ∨ q.headerCount + head.fields.length ≤ q.config.maxHeaderCount := by
    rw [config, count, Nat.zero_add]
    exact within.count
  have fields := fields_noted notes fieldwise head.fields (s := ⟨q, user⟩) (head.empty.bytes ++ rest) here running
    (config ▸ within.lines) fits taken
  obtain ⟨_, _, _, _, state', running', skip', left⟩ :=
    fields_path notes.attentive head.fields (s := ⟨q, user⟩) [] here running (config ▸ within.lines) fits
  have ends := end_turn notes.attentive head.empty (s := ⟨(q.takeFields head.fields).2, head.fields.foldl add user⟩)
    rest (by rw [state', if_pos taken]) running' (skip'.trans skip)
  rw [if_pos framable, Option.some.inj done, notes.hook] at ends
  rw [if_pos taken] at state'
  have checked := framing_checked (q.takeFields head.fields).2
  rw [← Option.some.inj done] at *
  refine ⟨checked.silent.paused.trans running', ?_, fields.tail ends⟩
  exact (checked.error_eq framable (by simp [state'])).trans (left taken).2

end

structure Message where
  status : Nat
  headers : List Kv
  body : Bytes
  deriving DecidableEq, Repr

structure Collected where
  key : Bytes := []
  headers : List Kv := []
  body : Bytes := []
  ended : List Bytes := []
  messages : List Message := []
  deriving DecidableEq, Repr

def collect (event : HookEvent) (p : Parser) (s : Collected) : Collected :=
  match event.name with
  | .onMsgBegin => { s with headers := [], body := [] }
  | .hdrKey => { s with key := event.data }
  | .hdrVal => { s with headers := s.headers ++ [⟨s.key, event.data⟩] }
  | .body => { s with body := s.body ++ event.data }
  | .onChunksComplete => { s with ended := s.ended ++ [s.body] }
  | .onMsgComplete => { s with messages := s.messages ++ [⟨p.status, s.headers, s.body⟩] }
  | _ => s

def collector : Hooks Collected where
  present _ := true
  call event p s := ({}, collect event p s)

theorem collector_notes : collector.Notes collect := ⟨fun _ => rfl, fun _ _ _ => rfl⟩

theorem collector_attentive : collector.Attentive := collector_notes.attentive

theorem hook_collector (name : HookName) (data : Bytes) (s : Scan Collected) :
    hook collector name data s = (true, ⟨s.p, collect ⟨name, data⟩ s.p s.user⟩) :=
  collector_notes.hook name data s

def Field.kv (field : Field) : Kv := ⟨field.name, field.value⟩

def Collected.addField (s : Collected) (field : Field) : Collected :=
  { s with key := field.name, headers := s.headers ++ [field.kv] }

theorem collect_fields : NotesFields collect Collected.addField := ⟨fun _ _ _ => rfl, fun _ _ _ _ => rfl⟩

theorem foldl_addField (fields : List Field) (s : Collected) : ∃ key, fields.foldl Collected.addField s =
    { s with key, headers := s.headers ++ fields.map Field.kv } := by
  induction fields generalizing s with
  | nil => exact ⟨s.key, by simp⟩
  | cons field fields ih =>
    obtain ⟨key, same⟩ := ih (s.addField field)
    exact ⟨key, by rw [List.foldl_cons, same]; simp [Collected.addField]⟩

section
variable [Htstring]

theorem head_collected {head : Head} {line : StatusLine} (starts : head.startLine = line.bytes) {p : Parser}
    (here : p.state = .start) (running : p.flags.paused = false) (response : p.type = .response)
    (within : head.Within p.config) (rest : Bytes) :
    ∃ q, StartOnly p.begin q ∧ q.status = line.code ∧ q.major = line.major ∧ q.minor = line.minor ∧
      ∀ framed, q.headFraming head.fields = some framed →
        framed.flags.paused = false ∧ framed.error = .none ∧ ∃ key, Decoder.Steps (resumedTurn collector) (⟨p, {}⟩, head.bytes ++ rest)
          (⟨framed, { key, headers := head.fields.map Field.kv }⟩, rest) := by
  obtain ⟨q, user, ok, kept, path, only, running', state, error, -, said⟩ :=
    start_path collector_attentive head.ending (s := ⟨p, {}⟩) (fieldBytes head.fields ++ (head.empty.bytes ++ rest))
      head.some head.unbroken here running within.startLine
  have fresh : user = {} := by
    refine kept (· = {}) (fun event p s starts same => ?_) rfl
    rcases event with ⟨name, data⟩
    cases name <;> simp_all [collector, collect, HookName.inStart]
  have said := said response
  rw [StatusRead] at said
  split at said
  next accepted =>
    obtain ⟨line', bytes, status, major, minor⟩ := said
    obtain ⟨code, first, second⟩ := StatusLine.bytes_unique (bytes.trans starts)
    refine ⟨q, only, status.trans code, major.trans first, minor.trans second, fun framed found => ?_⟩
    rw [if_pos accepted] at state
    obtain ⟨quiet, error', ends⟩ :=
      headEnd_noted collector_notes collect_fields user only state running' within found rest
    obtain ⟨key, collected⟩ := foldl_addField head.fields user
    rw [collected] at ends
    rw [fresh] at path ends
    have bytes : head.bytes ++ rest =
        head.startLine ++ head.ending.bytes ++ (fieldBytes head.fields ++ (head.empty.bytes ++ rest)) := by
      simp [Head.bytes]
    rw [bytes]
    exact ⟨quiet, error'.trans (error accepted), key, path.trans ends⟩
  next refused => exact absurd starts.symm (said line)

theorem complete_collected {p : Parser} (user : Collected) (rest : Bytes) (here : p.state = .complete)
    (running : p.flags.paused = false) : Decoder.Next (resumedTurn collector) (⟨p, user⟩, rest)
      (⟨p.finish, { user with messages := user.messages ++ [⟨p.status, user.headers, user.body⟩] }⟩, rest) :=
  complete_noted collector_notes user rest here running

theorem length_collected {p : Parser} (user : Collected) {body : Bytes} (here : p.state = .body)
    (mode : p.body = .length) (length : p.contentLen = body.length) (some : body ≠ [])
    (running : p.flags.paused = false) : ∃ q, q.state = .complete ∧ q.flags.paused = false ∧ q.status = p.status ∧
      q.error = p.error ∧ Decoder.Next (resumedTurn collector) (⟨p, user⟩, body)
        (⟨q, { user with body := user.body ++ body }⟩, []) :=
  ⟨{ p with contentLen := 0, state := .complete }, rfl, running, rfl, rfl,
    length_next here mode length some (hook_collector _ _ _) running⟩

theorem collected_grows {before after : Scan Collected × Bytes} (running : before.1.p.flags.paused = false)
    (steps : Decoder.Steps (resumedTurn collector) before after) :
    before.1.user.messages <+: after.1.user.messages ∧ before.1.user.ended <+: after.1.user.ended := by
  let kept (s : Collected) : Prop := before.1.user.messages <+: s.messages ∧ before.1.user.ended <+: s.ended
  have called : ∀ name data (s : Scan Collected), kept s.user → kept (hook collector name data s).2.user := by
    intro name data s held
    rw [hook_collector]
    cases name
    case onMsgComplete => exact ⟨held.1.trans (List.prefix_append _ _), held.2⟩
    case onChunksComplete => exact ⟨held.1, held.2.trans (List.prefix_append _ _)⟩
    all_goals exact held
  have invariant : HookInvariant collector fun _ s => kept s := {
    silent := fun held _ => held
    begins := fun _ _ held => called _ _ _ held
    host := fun _ _ _ held => called _ _ _ held
    completes := fun _ _ held => called _ _ _ held
    calls := fun _ _ _ held => called _ _ _ held }
  exact invariant.resumed collector (fun held => held) running ⟨List.prefix_rfl, List.prefix_rfl⟩ steps

end

end Evhtp
