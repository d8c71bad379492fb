import Evhtp.Proofs.HookTrace

/-! The bytes of a body. What a parser has consumed is described together with the hooks it has fired:
messages one after the other, each with the lines of its head, the pieces of its body and the lines that
frame them. The pieces are what the body hook was given. -/

namespace Evhtp

structure Line (max : Nat) where
  raw : Bytes
  content : Bytes
  complete : takeLine max raw = .line content raw.length

def Line.bytes {max : Nat} (lines : List (Line max)) : Bytes := lines.flatMap Line.raw

def delivered (fired : List Fired) : Bytes := fired.flatMap fun f => f.event.data

/-- Calls of the body hook for a body of `size` bytes, with the bytes still due at each of them. -/
structure Delivery (size : Nat) where
  pieces : List Fired
  bodies : ∀ f ∈ pieces, f.name = .body
  counted : ∀ before f after, pieces = before ++ f :: after → f.p.origContentLen = size ∧
    (delivered before).length + f.p.contentLen = size ∧ f.event.data.length ≤ f.p.contentLen

def Delivery.bytes {size : Nat} (delivery : Delivery size) : Bytes := delivered delivery.pieces

/-- A chunk that has been announced, and the part of its data that has been delivered. -/
structure OpenChunk (max : Nat) where
  line : Line max
  size : Nat
  declared : parseChunkSize line.content = some size
  opened : Fired
  opens : opened.event = ⟨.onNewChunk, []⟩ ∧ opened.p.origContentLen = size
  delivery : Delivery size

def OpenChunk.bytes {max : Nat} (chunk : OpenChunk max) : Bytes := chunk.line.raw ++ chunk.delivery.bytes

def OpenChunk.log {max : Nat} (chunk : OpenChunk max) : List Fired := chunk.opened :: chunk.delivery.pieces

/-- A chunk: all of the data its line declares, and the line that ends it. -/
structure Chunk (max : Nat) extends OpenChunk max where
  whole : delivery.bytes.length = size
  ending : Line max
  empty : ending.content = []
  closed : Fired
  closes : closed.event = ⟨.onChunkComplete, []⟩

def Chunk.bytes {max : Nat} (chunk : Chunk max) : Bytes := chunk.toOpenChunk.bytes ++ chunk.ending.raw

def Chunk.log {max : Nat} (chunk : Chunk max) : List Fired := chunk.toOpenChunk.log ++ [chunk.closed]

/-- The hooks of a head and of a trailer section, but for the one that ends a head. -/
def HookName.ofHead : HookName → Bool
  | .onHdrsComplete | .onNewChunk | .onChunkComplete | .onChunksComplete | .body | .onMsgComplete => false
  | _ => true

def OfHead (log : List Fired) : Prop := ∀ f ∈ log, f.name.ofHead = true

structure Lead where
  raw : Bytes
  blank : ∀ byte ∈ raw, byte = CR ∨ byte = LF

/-- The head of a message, and the empty lines before it. -/
structure HeadRead (max : Nat) where
  lead : Lead
  start : Line max
  fields : List (Line max)
  named : ∀ line ∈ fields, line.content ≠ []
  ending : Line max
  empty : ending.content = []
  log : List Fired
  within : OfHead log
  complete : Fired
  completes : complete.event = ⟨.onHdrsComplete, []⟩

def HeadRead.bytes {max : Nat} (head : HeadRead max) : Bytes :=
  head.lead.raw ++ head.start.raw ++ Line.bytes head.fields ++ head.ending.raw

def HeadRead.hooks {max : Nat} (head : HeadRead max) : List Fired := head.log ++ [head.complete]

structure Trailers (max : Nat) where
  last : Line max
  declared : parseChunkSize last.content = some 0
  closed : Fired
  closes : closed.event = ⟨.onChunksComplete, []⟩
  fields : List (Line max)
  named : ∀ line ∈ fields, line.content ≠ []
  log : List Fired
  within : OfHead log

def Trailers.bytes {max : Nat} (trailers : Trailers max) : Bytes := trailers.last.raw ++ Line.bytes trailers.fields

def Trailers.hooks {max : Nat} (trailers : Trailers max) : List Fired := trailers.closed :: trailers.log

inductive Body (max : Nat) where
  | none
  | length (size : Nat) (delivery : Delivery size) (whole : delivery.bytes.length = size)
  | identity (pieces : List Fired) (bodies : ∀ f ∈ pieces, f.name = .body)
  | chunked (chunks : List (Chunk max)) (trailers : Trailers max) (ending : Line max) (empty : ending.content = [])

def Body.bytes {max : Nat} : Body max → Bytes
  | .none => []
  | .length _ delivery _ => delivery.bytes
  | .identity pieces _ => delivered pieces
  | .chunked chunks trailers ending _ => chunks.flatMap Chunk.bytes ++ trailers.bytes ++ ending.raw

def Body.log {max : Nat} : Body max → List Fired
  | .none => []
  | .length _ delivery _ => delivery.pieces
  | .identity pieces _ => pieces
  | .chunked chunks trailers _ _ => chunks.flatMap Chunk.log ++ trailers.hooks

section
variable {σ : Type} (H : Hooks σ)

def Skips (fired : Fired) : Prop :=
  H.present fired.name = true ∧ ∃ user, (H.call fired.event fired.p user).1.skipBody = true

/-- The body is the one the head has announced when it was accepted. -/
def Body.Follows {max : Nat} (complete : Fired) : Body max → Prop
  | .none => complete.p.body = .none ∨ Skips H complete
  | .length size _ _ => complete.p.body = .length ∧ complete.p.origContentLen = size
  | .identity _ _ => complete.p.body = .identity
  | .chunked _ _ _ _ => complete.p.body = .chunked

/-- Nothing is due any more of a body that has a length. -/
def Body.Spent {max : Nat} (p : Parser) : Body max → Prop
  | .length _ _ _ => p.contentLen = 0
  | _ => True

/-- A message from the empty lines before it to the hook that reports it complete. -/
structure MessageRead (max : Nat) where
  head : HeadRead max
  body : Body max
  follows : body.Follows H head.complete
  finished : Fired
  finishes : finished.event = ⟨.onMsgComplete, []⟩
  spent : body.Spent finished.p

def MessageRead.bytes {max : Nat} (m : MessageRead H max) : Bytes := m.head.bytes ++ m.body.bytes

def MessageRead.log {max : Nat} (m : MessageRead H max) : List Fired := m.head.hooks ++ m.body.log ++ [m.finished]

inductive Reading (max : Nat) where
  | between (lead : Lead)
  | line (lead : Lead) (log : List Fired) (within : OfHead log)
  | fields (lead : Lead) (start : Line max) (fields : List (Line max)) (named : ∀ line ∈ fields, line.content ≠ [])
      (log : List Fired) (within : OfHead log)
  | length (head : HeadRead max) (size : Nat) (delivery : Delivery size)
  | identity (head : HeadRead max) (pieces : List Fired) (bodies : ∀ f ∈ pieces, f.name = .body)
  | chunks (head : HeadRead max) (chunks : List (Chunk max))
  | chunk (head : HeadRead max) (chunks : List (Chunk max)) (chunk : OpenChunk max)
  | trailers (head : HeadRead max) (chunks : List (Chunk max)) (trailers : Trailers max)
  | done (head : HeadRead max) (body : Body max)

def Reading.bytes {max : Nat} : Reading max → Bytes
  | .between lead => lead.raw
  | .line lead _ _ => lead.raw
  | .fields lead start rest _ _ _ => lead.raw ++ start.raw ++ Line.bytes rest
  | .length head _ delivery => head.bytes ++ delivery.bytes
  | .identity head pieces _ => head.bytes ++ delivered pieces
  | .chunks head past => head.bytes ++ past.flatMap Chunk.bytes
  | .chunk head past part => head.bytes ++ (past.flatMap Chunk.bytes ++ part.bytes)
  | .trailers head past part => head.bytes ++ (past.flatMap Chunk.bytes ++ part.bytes)
  | .done head body => head.bytes ++ body.bytes

def Reading.log {max : Nat} : Reading max → List Fired
  | .between _ => []
  | .line _ log _ => log
  | .fields _ _ _ _ log _ => log
  | .length head _ delivery => head.hooks ++ delivery.pieces
  | .identity head pieces _ => head.hooks ++ pieces
  | .chunks head past => head.hooks ++ past.flatMap Chunk.log
  | .chunk head past part => head.hooks ++ (past.flatMap Chunk.log ++ part.log)
  | .trailers head past part => head.hooks ++ (past.flatMap Chunk.log ++ part.hooks)
  | .done head body => head.hooks ++ body.log

/-- The parser is where this has been read. Of a body or a chunk with a length, the bytes delivered and the
bytes due make up that length. -/
def Reading.Fits {max : Nat} (p : Parser) : Reading max → Prop
  | .between _ => p.state = .start
  | .line _ _ _ => p.state = .headLine
  | .fields _ _ _ _ _ _ => p.state = .headers
  | .length head size delivery =>
    (p.state = .body ∧ p.body = .length) ∧ (head.complete.p.body = .length ∧ head.complete.p.origContentLen = size) ∧
      p.origContentLen = size ∧ delivery.bytes.length + p.contentLen = size
  | .identity head _ _ => (p.state = .body ∧ p.body = .identity) ∧ head.complete.p.body = .identity
  | .chunks head _ => (p.state = .body ∧ p.body = .chunked ∧ p.chunk = .size) ∧ head.complete.p.body = .chunked
  | .chunk head _ part =>
    (p.state = .body ∧ p.body = .chunked ∧ (p.chunk = .data ∨ p.chunk = .dataEnd ∧ p.contentLen = 0)) ∧
      head.complete.p.body = .chunked ∧ p.origContentLen = part.size ∧
      part.delivery.bytes.length + p.contentLen = part.size
  | .trailers head _ _ => p.state = .trailers ∧ head.complete.p.body = .chunked
  | .done head body => p.state = .complete ∧ body.Follows H head.complete ∧ body.Spent p

/-- What a parser has consumed and which hooks it has fired since it was initialised. After an error there may be
bytes that could not be made sense of. -/
structure Transcript (max : Nat) (s : Scan (σ × List Fired)) (read : Bytes) where
  messages : List (MessageRead H max)
  now : Reading max
  refused : Bytes
  extra : List Fired
  bytes : read = messages.flatMap (MessageRead.bytes H) ++ (now.bytes ++ refused)
  log : s.user.2 = messages.flatMap (MessageRead.log H) ++ (now.log ++ extra)
  within : OfHead extra
  fits : s.p.state ≠ .error → refused = [] ∧ extra = [] ∧ now.Fits H s.p

end

theorem takeLine_take {max : Nat} {data content : Bytes} {used : Nat} (taken : takeLine max data = .line content used) :
    takeLine max (data.take used) = .line content (data.take used).length := by
  unfold takeLine at taken
  dsimp only at taken
  split at taken
  · split at taken <;> cases taken
  · next short =>
    split at taken
    · cases taken
    · next fits =>
      cases taken
      obtain ⟨byte, rest, cut⟩ : ∃ byte rest, data.dropWhile (· != LF) = byte :: rest := by
        cases cut : data.dropWhile (· != LF) with
        | nil =>
          have whole := congrArg List.length (List.takeWhile_append_dropWhile (p := (· != LF)) (l := data))
          rw [cut, List.append_nil] at whole
          exact absurd whole short
        | cons byte rest => exact ⟨byte, rest, rfl⟩
      have stop : (byte != LF) = false := by
        have := List.head_dropWhile_not (· != LF) (l := data) (by simp [cut])
        simpa [cut] using this
      have same : data.take ((data.takeWhile (· != LF)).length + 1) = data.takeWhile (· != LF) ++ [byte] := by
        have whole := List.takeWhile_append_dropWhile (p := (· != LF)) (l := data)
        rw [cut] at whole
        generalize data.takeWhile (· != LF) = raw at whole ⊢
        rw [← whole, List.take_length_add_append]
        rfl
      have first : (data.takeWhile (· != LF) ++ [byte]).takeWhile (· != LF) = data.takeWhile (· != LF) := by
        have all : ∀ b ∈ data.takeWhile (· != LF), (b != LF) = true := fun _ => List.mem_takeWhile_imp
        rw [List.takeWhile_append_of_pos all, List.takeWhile_cons_of_neg (by simp [stop]), List.append_nil]
      unfold takeLine
      dsimp only
      rw [same, first, if_neg (by simp), if_neg fits]
      simp

def Line.of {max : Nat} {data content : Bytes} {used : Nat} (taken : takeLine max data = .line content used) : Line max :=
  ⟨data.take used, content, takeLine_take taken⟩

theorem Line.bytes_append {max : Nat} (lines : List (Line max)) (line : Line max) :
    Line.bytes (lines ++ [line]) = Line.bytes lines ++ line.raw := by
  simp [Line.bytes]

theorem OfHead.append {first second : List Fired} (one : OfHead first) (two : OfHead second) : OfHead (first ++ second) := by
  intro f member
  exact (List.mem_append.mp member).elim (one f) (two f)

def Delivery.more {size : Nat} (delivery : Delivery size) (f : Fired) (body : f.name = .body) (orig : f.p.origContentLen = size)
    (due : delivery.bytes.length + f.p.contentLen = size) (fits : f.event.data.length ≤ f.p.contentLen) : Delivery size where
  pieces := delivery.pieces ++ [f]
  bodies := List.forall_mem_append.mpr ⟨delivery.bodies, List.forall_mem_singleton.mpr body⟩
  counted := by
    intro before g after same
    rcases List.eq_nil_or_concat after with none | ⟨init, last, rfl⟩
    · rw [none] at same
      obtain ⟨rfl, last⟩ := List.append_inj' same rfl
      cases last
      exact ⟨orig, due, fits⟩
    · rw [List.concat_eq_append, ← List.cons_append, ← List.append_assoc] at same
      exact delivery.counted before g init (List.append_inj' same rfl).1

def Delivery.nothing (size : Nat) : Delivery size := ⟨[], by simp, by simp⟩

theorem Delivery.more_bytes {size : Nat} (delivery : Delivery size) (f : Fired) (body orig due fits) :
    (delivery.more f body orig due fits).bytes = delivery.bytes ++ f.event.data := by
  simp [Delivery.more, Delivery.bytes, delivered]

/-- A parser that differs at most in what a hook that succeeds may change. -/
structure Obeys (p q : Parser) : Prop where
  state : q.state = p.state
  body : q.body = p.body
  chunk : q.chunk = p.chunk
  contentLen : q.contentLen = p.contentLen
  origContentLen : q.origContentLen = p.origContentLen

theorem Body.Spent.same {max : Nat} {p q : Parser} (same : q.contentLen = p.contentLen) {body : Body max}
    (spent : body.Spent p) : body.Spent q := by
  cases body with
  | length => exact same.trans spent
  | none | identity | chunked => trivial

section
variable {σ : Type} {H : Hooks σ} {max : Nat} {p q : Parser}

theorem Reading.Fits.obeys (obeys : Obeys p q) {now : Reading max} (fits : now.Fits H p) : now.Fits H q := by
  obtain ⟨state, body, chunk, contentLen, origContentLen⟩ := obeys
  cases now with
  | done head rest => exact ⟨state.trans fits.1, fits.2.1, fits.2.2.same contentLen⟩
  | _ => simpa only [Reading.Fits, state, body, chunk, contentLen, origContentLen] using fits

/-- Going on in a message: the bytes and the hooks are those that have been read and fired since. -/
def Advances (H : Hooks σ) (now : Reading max) (s after : Scan (σ × List Fired)) (bytes : Bytes) : Prop :=
  ∃ fired, after.user.2 = s.user.2 ++ fired ∧
    (after.p.state ≠ .error → ∃ next : Reading max,
      next.bytes = now.bytes ++ bytes ∧ next.log = now.log ++ fired ∧ next.Fits H after.p) ∧
    (after.p.state = .error → OfHead fired)

variable {now : Reading max} {s : Scan (σ × List Fired)}

theorem Advances.failed {after : Scan (σ × List Fired)} (bytes : Bytes) (bad : after.p.state = .error)
    (same : after.user.2 = s.user.2) : Advances H now s after bytes :=
  ⟨[], by simp [same], fun good => absurd bad good, fun _ => by simp [OfHead]⟩

theorem Advances.silent {bytes : Bytes} (next : Reading max) (read : next.bytes = now.bytes ++ bytes)
    (log : next.log = now.log) (fits : next.Fits H p) : Advances H now s ⟨p, s.user⟩ bytes := by
  by_cases bad : p.state = .error
  · exact .failed bytes bad rfl
  · exact ⟨[], by simp, fun _ => ⟨next, read, by simp [log], fits⟩, fun failed => absurd failed bad⟩

variable (accepts : ∀ event p user, (H.call event p user).1.rc = 0)
include accepts

/-- A hook that succeeds is recorded; it may ask for the body to be skipped. -/
theorem hook_accepted (name : HookName) (data : Bytes) (s : Scan (σ × List Fired)) :
    ∃ q user, hook H.logged name data s = (true, ⟨q, (user, s.user.2 ++ [⟨⟨name, data⟩, s.p, 0⟩])⟩) ∧ Obeys s.p q ∧
      (q.flags.skipBody = true → s.p.flags.skipBody = true ∨ Skips H ⟨⟨name, data⟩, s.p, 0⟩) := by
  by_cases present : H.present name = true
  · have zero := accepts ⟨name, data⟩ s.p s.user.1
    refine ⟨s.p.replied (H.call ⟨name, data⟩ s.p s.user.1).1, (H.call ⟨name, data⟩ s.p s.user.1).2, ?_, ?_, fun skip => ?_⟩
    · simp [hook, Hooks.logged, present, zero]
    · constructor <;> simp [Parser.replied, zero]
    · simp only [Parser.replied, zero, if_true, Bool.or_eq_true] at skip
      exact skip.imp id fun asks => ⟨present, s.user.1, asks⟩
  · refine ⟨s.p, s.user.1, ?_, ⟨rfl, rfl, rfl, rfl, rfl⟩, fun skip => .inl skip⟩
    simp [hook, Hooks.logged, present, Parser.replied]

theorem Advances.hook (name : HookName) (data bytes : Bytes) (next : Reading max)
    (read : next.bytes = now.bytes ++ bytes) (log : next.log = now.log ++ [⟨⟨name, data⟩, p, 0⟩]) (fits : next.Fits H p)
    (alive : p.state ≠ .error) : Advances H now s (hook H.logged name data ⟨p, s.user⟩).2 bytes := by
  obtain ⟨q, user, same, obeys, _⟩ := hook_accepted accepts name data ⟨p, s.user⟩
  rw [same]
  exact ⟨_, rfl, fun _ => ⟨next, read, log, fits.obeys obeys⟩, fun bad => absurd (obeys.state.symm.trans bad) alive⟩

end

def HeadOnly (L : Language HookName) : Prop := ∀ word ∈ L, ∀ name ∈ word, name.ofHead = true

section
variable {L M : Language HookName}

theorem HeadOnly.only {name : HookName} (within : name.ofHead = true) : HeadOnly (only name) := by
  rintro _ rfl other member
  rwa [List.mem_singleton.mp member]

theorem HeadOnly.mul (first : HeadOnly L) (second : HeadOnly M) : HeadOnly (L * M) := by
  intro word member name inside
  obtain ⟨one, here, two, there, rfl⟩ := Language.mem_mul.mp member
  exact (List.mem_append.mp inside).elim (first one here name) (second two there name)

theorem HeadOnly.add (first : HeadOnly L) (second : HeadOnly M) : HeadOnly (L + M) := fun word member =>
  member.elim (first word) (second word)

theorem HeadOnly.one : HeadOnly 1 := by
  rintro _ rfl name inside
  cases inside

theorem HeadOnly.maybe (within : HeadOnly L) : HeadOnly (maybe L) := HeadOnly.one.add within

theorem trailerEvents_head : HeadOnly trailerEvents := .mul (.only rfl) (.only rfl)

theorem startEvents_head (type : HtpType) : HeadOnly (startEvents type) := by
  have hostPort : HeadOnly hostPortEvents := .mul (.only rfl) (.maybe (.only rfl))
  have path : HeadOnly pathEvents := .mul (.only rfl) (.mul (.maybe (.only rfl)) (.only rfl))
  cases type with
  | response => exact .one
  | request =>
    refine .mul (.only rfl) (.add (.mul (.maybe (.mul (.only rfl) hostPort)) path) ?_)
    exact .mul hostPort (.mul (.only rfl) (.only rfl))

variable {σ : Type} {H : Hooks σ} {s : Scan (σ × List Fired)}

/-- What a function of the head may do: fire hooks of a head and stay where it is, or fail. -/
def InHead (s : Scan (σ × List Fired)) (result : Bool × Scan (σ × List Fired)) : Prop :=
  ∃ fired, result.2.user.2 = s.user.2 ++ fired ∧ OfHead fired ∧
    result.2.p.state = if result.1 then s.p.state else .error

theorem Emits.inHead {host : Bool} {result : Bool × Scan (σ × List Fired)} (emits : Emits host L s result)
    (within : HeadOnly L) : InHead s result := by
  obtain ⟨fired, log, _, _, passed, failed⟩ := emits.fired
  refine ⟨fired, log, fun f member => ?_, emits.settled.state⟩
  have name : f.name ∈ fired.map Fired.name := List.mem_map_of_mem member
  cases ok : result.1 with
  | true => exact within _ (passed ok).1 f.name name
  | false =>
    obtain ⟨more, word⟩ := failed ok
    exact within _ word f.name (List.mem_append_left _ name)

theorem parseHeader_inHead [Htstring] (line : Bytes) (trailer : Bool) (s : Scan (σ × List Fired)) :
    InHead s (parseHeader H.logged line trailer s) := by
  rcases parseHeader_emits (H := H) line trailer s with emits | ⟨_, _, emits⟩
  · exact emits.inHead trailerEvents_head
  · exact emits.inHead (.mul (.only rfl) (.mul (.only rfl) (.only rfl)))

end

theorem framing_due {p : Parser} (ok : (framing p).1 = true) :
    (framing p).2.contentLen = (if (framing p).2.body = .length then (framing p).2.origContentLen else 0) ∧
      (framing p).2.chunk = .size ∧ ((framing p).2.flags.skipBody = true → (framing p).2.body = .none) := by
  unfold framing at ok ⊢
  dsimp only at ok ⊢
  grind

section
variable {σ : Type} {H : Hooks σ} {max : Nat} {now : Reading max} {s : Scan (σ × List Fired)} {lead : Lead}
  (accepts : ∀ event p user, (H.call event p user).1.rc = 0)
include accepts

theorem endHead_advances {start : Line max} {fields : List (Line max)} {named log within} (ending : Line max)
    (empty : ending.content = []) :
    Advances H (.fields lead start fields named log within) s (endHead H.logged s) ending.raw := by
  unfold endHead
  split
  · next ok =>
    obtain ⟨due, size, bare⟩ := framing_due ok
    generalize (framing s.p).2 = p at due size bare ⊢
    obtain ⟨q, user, same, obeys, skips⟩ := hook_accepted accepts .onHdrsComplete [] ⟨p.headDone, s.user⟩
    let head : HeadRead max :=
      ⟨lead, start, fields, named, ending, empty, log, within, ⟨⟨.onHdrsComplete, []⟩, p.headDone, 0⟩, rfl⟩
    have advance : ∀ (next : Reading max) q, next.bytes = head.bytes → next.log = head.hooks → next.Fits H q →
        q.state ≠ .error → Advances H (.fields lead start fields named log within) s
          ⟨q, (user, s.user.2 ++ [⟨⟨.onHdrsComplete, []⟩, p.headDone, 0⟩])⟩ ending.raw :=
      fun next _ read hooks fits alive => ⟨_, rfl, fun _ => ⟨next, read, hooks, fits⟩, fun bad => absurd bad alive⟩
    rw [same]
    unfold skipIfAsked
    split
    · next asked =>
      refine advance (.done head .none) _ (by simp [Reading.bytes, Body.bytes]) (by simp [Reading.log, Body.log])
        ⟨rfl, ?_, trivial⟩ (by simp)
      exact (skips asked.2).imp bare id
    · have state : q.state = if p.body = .none then .complete else .body := obeys.state
      have count : q.contentLen = _ := obeys.contentLen.trans due
      have mode : q.body = p.body := obeys.body
      cases kind : p.body with
      | none =>
        rw [kind, if_pos rfl] at state
        refine advance (.done head .none) _ (by simp [Reading.bytes, Body.bytes]) (by simp [Reading.log, Body.log])
          ⟨state, .inl kind, trivial⟩ (by simp [state])
      | length =>
        rw [kind, if_neg (by simp)] at state
        rw [kind, if_pos rfl] at count
        refine advance (.length head p.origContentLen (.nothing _)) _ ?_ ?_ ?_ (by simp [state])
        · simp [Reading.bytes, Delivery.nothing, Delivery.bytes, delivered]
        · simp [Reading.log, Delivery.nothing]
        · refine ⟨⟨state, mode.trans kind⟩, ⟨kind, rfl⟩, obeys.origContentLen, ?_⟩
          simpa [Delivery.nothing, Delivery.bytes, delivered] using count
      | identity =>
        rw [kind, if_neg (by simp)] at state
        refine advance (.identity head [] (by simp)) _ ?_ ?_ ⟨⟨state, mode.trans kind⟩, kind⟩ (by simp [state])
        · simp [Reading.bytes, delivered]
        · simp [Reading.log]
      | chunked =>
        rw [kind, if_neg (by simp)] at state
        refine advance (.chunks head []) _ ?_ ?_ ⟨⟨state, mode.trans kind, obeys.chunk.trans size⟩, kind⟩ (by simp [state])
        · simp [Reading.bytes]
        · simp [Reading.log]
  · next bad =>
    refine .failed _ ?_ rfl
    rw [(framing_settled s.p).state]
    exact if_neg bad

variable [Htstring]

theorem startLine_advances {log : List Fired} {within : OfHead log} (here : s.p.state = .headLine)
    (line : Line max) :
    Advances H (.line lead log within : Reading max) s (parseHeadLine H.logged line.content s) line.raw := by
  obtain ⟨fired, hooks, inside, state⟩ := (parseStartLine_emits (H := H) line.content s).inHead (startEvents_head _)
  unfold parseHeadLine
  rw [if_pos here]
  dsimp only
  generalize parseStartLine H.logged line.content s = result at *
  split
  · obtain ⟨q, user, same, obeys, _⟩ :=
      hook_accepted accepts .onHdrsBegin [] ⟨{ result.2.p with state := .headers }, result.2.user⟩
    unfold enterHeaders
    rw [same]
    have begun : OfHead [⟨⟨.onHdrsBegin, []⟩, { result.2.p with state := .headers }, 0⟩] := by
      simp [OfHead, Fired.name, HookName.ofHead]
    refine ⟨fired ++ [_], by rw [← List.append_assoc, ← hooks], fun _ => ?_, fun _ => inside.append begun⟩
    refine ⟨.fields lead line [] (by simp) (log ++ (fired ++ [_])) (within.append (inside.append begun)), ?_, rfl, obeys.state⟩
    simp [Reading.bytes, Line.bytes]
  · next bad =>
    rw [if_neg bad] at state
    exact ⟨fired, hooks, fun good => absurd state good, fun _ => inside⟩

omit accepts in
theorem field_advances {now : Reading max} {line : Line max} (here : s.p.state = .headers ∨ s.p.state = .trailers)
    (named : line.content ≠ [])
    (goes : ∀ fired (after : Parser), OfHead fired → after.state = s.p.state →
      ∃ next : Reading max, next.bytes = now.bytes ++ line.raw ∧ next.log = now.log ++ fired ∧ next.Fits H after) :
    Advances H now s (parseHeadLine H.logged line.content s) line.raw := by
  unfold parseHeadLine
  rw [if_neg (by rcases here with here | here <;> simp [here]), if_neg named]
  split
  · exact .failed _ rfl rfl
  · obtain ⟨fired, hooks, inside, state⟩ := parseHeader_inHead (H := H) line.content (s.p.state == .trailers)
      { s with p := s.p.countHeader }
    generalize parseHeader H.logged line.content (s.p.state == .trailers) { s with p := s.p.countHeader } = result at *
    refine ⟨fired, hooks, fun good => ?_, fun _ => inside⟩
    split at state
    · exact goes fired _ inside state
    · exact absurd state good

theorem fields_advances {start : Line max} {fields : List (Line max)} {named log within}
    (here : s.p.state = .headers) (line : Line max) :
    Advances H (.fields lead start fields named log within) s (parseHeadLine H.logged line.content s) line.raw := by
  by_cases empty : line.content = []
  · unfold parseHeadLine
    rw [if_neg (by simp [here]), if_pos empty, if_neg (by simp [here])]
    exact endHead_advances accepts line empty
  · refine field_advances (.inl here) empty fun fired after inside same => ?_
    refine ⟨.fields lead start (fields ++ [line]) ?_ (log ++ fired) (within.append inside), ?_, rfl, same.trans here⟩
    · exact List.forall_mem_append.mpr ⟨named, List.forall_mem_singleton.mpr empty⟩
    · simp [Reading.bytes, Line.bytes_append]

omit accepts in
theorem trailers_advances {head : HeadRead max} {past : List (Chunk max)} {part : Trailers max} (here : s.p.state = .trailers)
    (chunked : head.complete.p.body = .chunked) (line : Line max) :
    Advances H (.trailers head past part) s (parseHeadLine H.logged line.content s) line.raw := by
  by_cases empty : line.content = []
  · unfold parseHeadLine
    rw [if_neg (by simp [here]), if_pos empty, if_pos (by simp [here])]
    refine .silent (.done head (.chunked past part line empty)) ?_ ?_ ⟨rfl, chunked, trivial⟩
    · simp [Reading.bytes, Body.bytes]
    · simp [Reading.log, Body.log]
  · refine field_advances (.inr here) empty fun fired after inside same => ?_
    refine ⟨.trailers head past { part with
      fields := part.fields ++ [line], log := part.log ++ fired, within := part.within.append inside
      named := List.forall_mem_append.mpr ⟨part.named, List.forall_mem_singleton.mpr empty⟩ }, ?_, ?_, ?_⟩
    · simp [Reading.bytes, Trailers.bytes, Line.bytes_append]
    · simp [Reading.log, Trailers.hooks]
    · exact ⟨same.trans here, chunked⟩

end

section
variable {σ : Type} {H : Hooks σ} {max : Nat} {s : Scan (σ × List Fired)}
  {head : HeadRead max} {past : List (Chunk max)} {part : OpenChunk max} {size : Nat}
  (accepts : ∀ event p user, (H.call event p user).1.rc = 0)

theorem countDelimited_advances (before after : Delivery size) {q : Parser} {user : σ}
    {fired : List Fired} {n : Nat} {piece : Bytes} (read : after.bytes = before.bytes ++ piece) (exact : piece.length = n)
    (log : after.pieces = before.pieces ++ fired) (fits : (Reading.length head size before).Fits H q) (few : n ≤ q.contentLen) :
    Advances H (.length head size before) s (countDelimited n (true, ⟨q, (user, s.user.2 ++ fired)⟩)) piece := by
  obtain ⟨⟨state, mode⟩, announced, orig, due⟩ := fits
  have bytes : (Reading.length head size after).bytes = (Reading.length head size before).bytes ++ piece := by
    simp [Reading.bytes, read]
  have hooks : (Reading.length head size after).log = (Reading.length head size before).log ++ fired := by
    simp [Reading.log, log]
  have total : after.bytes.length = before.bytes.length + n := by rw [read, List.length_append, exact]
  unfold countDelimited
  rw [if_pos ⟨rfl, mode⟩]
  by_cases last : q.contentLen - n = 0
  · refine ⟨fired, rfl, fun _ => ?_, fun bad => ?_⟩
    · refine ⟨.done head (.length size after (by omega)), bytes, hooks, ?_, announced, last⟩
      simp [last]
    · simp [last] at bad
  · refine ⟨fired, rfl, fun _ => ?_, fun bad => ?_⟩
    · refine ⟨.length head size after, bytes, hooks, ⟨?_, mode⟩, announced, orig, ?_⟩
      · simp [last, state]
      · dsimp only
        omega
    · simp [last, state] at bad

theorem Parser.delimitedPiece_le {p : Parser} (data : Bytes) (mode : p.body = .length) :
    p.delimitedPiece data ≤ p.contentLen ∧ p.delimitedPiece data ≤ data.length := by
  unfold Parser.delimitedPiece
  rw [mode]
  split
  · omega
  · next few =>
    have : ¬data.length > p.contentLen := fun more => few ⟨rfl, more⟩
    omega

theorem Parser.chunkPiece_le (p : Parser) (data : Bytes) :
    p.chunkPiece data ≤ p.contentLen ∧ p.chunkPiece data ≤ data.length := by
  unfold Parser.chunkPiece
  split <;> omega

include accepts

theorem length_advances {delivery : Delivery size}
    (fits : (Reading.length head size delivery).Fits H s.p) (data : Bytes) :
    Advances H (.length head size delivery) s (parseDelimited H.logged data s).1
      (data.take (parseDelimited H.logged data s).2) := by
  have mode : s.p.body = .length := fits.1.2
  obtain ⟨few, short⟩ := s.p.delimitedPiece_le data mode
  unfold parseDelimited
  dsimp only
  generalize s.p.delimitedPiece data = n at few short ⊢
  have count : (data.take n).length = n := by
    rw [List.length_take]
    omega
  split
  · obtain ⟨q, user, same, obeys, _⟩ := hook_accepted accepts .body (data.take n) s
    rw [same]
    refine countDelimited_advances delivery (delivery.more ⟨⟨.body, data.take n⟩, s.p, 0⟩ rfl fits.2.2.1 fits.2.2.2 ?_)
      (delivery.more_bytes _ _ _ _ _) count rfl (fits.obeys obeys) ?_
    · rw [count]
      exact few
    · rw [obeys.contentLen]
      exact few
  · next none =>
    have zero : n = 0 := by simpa using none
    subst zero
    have counted : Advances H (.length head size delivery) s
        (countDelimited 0 (true, ⟨s.p, (s.user.1, s.user.2 ++ [])⟩)) [] :=
      countDelimited_advances delivery delivery (by simp) rfl (by simp) fits (Nat.zero_le _)
    simpa using counted

theorem identity_advances {pieces : List Fired} {bodies : ∀ f ∈ pieces, f.name = .body}
    (fits : (Reading.identity head pieces bodies).Fits H s.p) (data : Bytes) :
    Advances H (.identity head pieces bodies) s (parseDelimited H.logged data s).1
      (data.take (parseDelimited H.logged data s).2) := by
  have mode : s.p.body = .identity := fits.1.2
  unfold parseDelimited
  dsimp only
  generalize s.p.delimitedPiece data = n
  have uncounted : ∀ {q : Parser} {user}, q.body = .identity → countDelimited n (true, (⟨q, user⟩ : Scan (σ × List Fired))) = ⟨q, user⟩ := by
    intro q user mode
    simp [countDelimited, mode]
  split
  · obtain ⟨q, user, same, obeys, _⟩ := hook_accepted accepts .body (data.take n) s
    rw [same, uncounted (obeys.body.trans mode)]
    have state : q.state = .body := obeys.state.trans fits.1.1
    refine ⟨[⟨⟨.body, data.take n⟩, s.p, 0⟩], rfl, fun _ => ?_, fun bad => absurd (state.symm.trans bad) (by simp)⟩
    have bodies' : ∀ f ∈ pieces ++ [⟨⟨.body, data.take n⟩, s.p, 0⟩], f.name = .body :=
      List.forall_mem_append.mpr ⟨bodies, List.forall_mem_singleton.mpr rfl⟩
    refine ⟨.identity head _ bodies', ?_, ?_, fits.obeys obeys⟩
    · simp [Reading.bytes, delivered]
    · simp [Reading.log]
  · next none =>
    have zero : n = 0 := by simpa using none
    rw [zero] at uncounted ⊢
    rw [uncounted mode]
    exact .silent (.identity head pieces bodies) (by simp) rfl fits

theorem sizeLine_advances (limit : s.p.config.maxLineLength = max)
    (fits : (Reading.chunks head past).Fits H s.p) (data : Bytes) :
    Advances H (.chunks head past) s (parseSizeLine H.logged data s).1 (data.take (parseSizeLine H.logged data s).2) := by
  obtain ⟨⟨state, mode, _⟩, chunked⟩ := fits
  unfold parseSizeLine
  rw [limit]
  split
  · exact .silent (.chunks head past) (by simp) rfl ⟨⟨state, mode, ‹_›⟩, chunked⟩
  · exact .failed _ rfl rfl
  · next content used taken =>
    split
    · exact .failed _ rfl rfl
    · next size declared =>
      dsimp only
      split
      · next zero =>
        rw [zero] at declared
        let part : Trailers max := ⟨.of taken, declared,
          ⟨⟨.onChunksComplete, []⟩, { s.p with state := .trailers, headerCount := 0 }, 0⟩, rfl, [], by simp, [], by simp [OfHead]⟩
        refine .hook accepts .onChunksComplete [] _ (.trailers head past part) ?_ ?_ ⟨rfl, chunked⟩ (by simp)
        · simp [Reading.bytes, part, Trailers.bytes, Line.bytes, Line.of]
        · simp [Reading.log, part, Trailers.hooks]
      · let part : OpenChunk max := ⟨.of taken, size, declared,
          ⟨⟨.onNewChunk, []⟩, { s.p with contentLen := size, origContentLen := size, chunk := .data }, 0⟩, ⟨rfl, rfl⟩,
          .nothing size⟩
        refine .hook accepts .onNewChunk [] _ (.chunk head past part) ?_ ?_ ⟨⟨state, mode, .inl rfl⟩, chunked, rfl, ?_⟩ ?_
        · simp [Reading.bytes, part, OpenChunk.bytes, Line.of, Delivery.nothing, Delivery.bytes, delivered]
        · simp [Reading.log, part, OpenChunk.log, Delivery.nothing]
        · simp [part, Delivery.nothing, Delivery.bytes, delivered]
        · simp [state]

theorem chunkData_advances
    (fits : (Reading.chunk head past part).Fits H s.p) (here : s.p.chunk = .data) (data : Bytes) :
    Advances H (.chunk head past part) s (parseChunkData H.logged data s).1 (data.take (parseChunkData H.logged data s).2) := by
  obtain ⟨⟨state, mode, _⟩, chunked, orig, due⟩ := fits
  obtain ⟨few, short⟩ := s.p.chunkPiece_le data
  unfold parseChunkData
  dsimp only
  generalize s.p.chunkPiece data = n at few short ⊢
  have count : (data.take n).length = n := by
    rw [List.length_take]
    omega
  obtain ⟨q, user, same, obeys, _⟩ := hook_accepted accepts .body (data.take n) s
  rw [same]
  have within : (⟨⟨.body, data.take n⟩, s.p, 0⟩ : Fired).event.data.length ≤ s.p.contentLen := by
    rw [count]
    exact few
  let delivery := part.delivery.more ⟨⟨.body, data.take n⟩, s.p, 0⟩ rfl orig due within
  have bytes : delivery.bytes = part.delivery.bytes ++ data.take n := part.delivery.more_bytes _ rfl orig due within
  let next : OpenChunk max := { part with delivery }
  have alive : q.state ≠ .error := by simp [obeys.state, state]
  have left : q.contentLen = s.p.contentLen := obeys.contentLen
  refine ⟨[⟨⟨.body, data.take n⟩, s.p, 0⟩], rfl, fun _ => ⟨.chunk head past next, ?_, ?_, ?_⟩, fun bad => absurd bad alive⟩
  · simp [Reading.bytes, OpenChunk.bytes, bytes, next]
  · simp [Reading.log, OpenChunk.log, next, delivery, Delivery.more]
  · unfold countChunk
    rw [if_pos rfl]
    refine ⟨⟨obeys.state.trans state, obeys.body.trans mode, ?_⟩, chunked, obeys.origContentLen.trans orig, ?_⟩
    · dsimp only
      by_cases last : q.contentLen - n = 0
      · exact .inr ⟨if_pos last, last⟩
      · exact .inl ((if_neg last).trans (obeys.chunk.trans here))
    · dsimp only
      change delivery.bytes.length + (q.contentLen - n) = part.size
      rw [bytes, List.length_append, count, left]
      omega

theorem chunkEnd_advances
    (limit : s.p.config.maxLineLength = max) (fits : (Reading.chunk head past part).Fits H s.p) (here : s.p.chunk = .dataEnd)
    (data : Bytes) :
    Advances H (.chunk head past part) s (parseChunkEnd H.logged data s).1 (data.take (parseChunkEnd H.logged data s).2) := by
  have held := fits
  obtain ⟨⟨state, mode, place⟩, chunked, orig, due⟩ := fits
  have none : s.p.contentLen = 0 := by
    rcases place with data | ⟨_, none⟩
    · exact absurd (here.symm.trans data) (by simp)
    · exact none
  unfold parseChunkEnd
  rw [limit]
  split
  · split
    · exact .silent (.chunk head past part) (by simp) rfl held
    · exact .failed _ rfl rfl
  · exact .failed _ rfl rfl
  · next content used taken =>
    split
    · exact .failed _ rfl rfl
    · next empty =>
      let chunk : Chunk max := { part with
        whole := by omega
        ending := .of taken
        empty := not_not.mp empty
        closed := ⟨⟨.onChunkComplete, []⟩, { s.p with chunk := .size }, 0⟩
        closes := rfl }
      refine .hook accepts .onChunkComplete [] _ (.chunks head (past ++ [chunk])) ?_ ?_ ⟨⟨state, mode, rfl⟩, chunked⟩ (by simp [state])
      · simp [Reading.bytes, Chunk.bytes, chunk, Line.of]
      · simp [Reading.log, Chunk.log, chunk]

end

section
variable {σ : Type} {H : Hooks σ} {max : Nat} {s : Scan (σ × List Fired)} {read : Bytes}
  {now : Reading max} {data : Bytes} {after : Scan (σ × List Fired) × Nat}

theorem Transcript.advance (t : Transcript H max s read) (alive : s.p.state ≠ .error) {after : Scan (σ × List Fired)}
    {bytes : Bytes} (advances : Advances H t.now s after bytes) : Nonempty (Transcript H max after (read ++ bytes)) := by
  obtain ⟨none, nothing, _⟩ := t.fits alive
  obtain ⟨fired, log, passed, failed⟩ := advances
  have read' := t.bytes
  have log' := t.log
  rw [none, List.append_nil] at read'
  rw [nothing, List.append_nil] at log'
  by_cases bad : after.p.state = .error
  · refine ⟨⟨t.messages, t.now, bytes, fired, ?_, ?_, failed bad, fun good => absurd bad good⟩⟩
    · exact (congrArg (· ++ bytes) read').trans (List.append_assoc _ _ _)
    · rw [log, log', List.append_assoc]
  · obtain ⟨next, more, hooks, fits⟩ := passed bad
    refine ⟨⟨t.messages, next, [], [], ?_, ?_, by simp [OfHead], fun _ => ⟨rfl, rfl, fits⟩⟩⟩
    · rw [more, List.append_nil]
      exact (congrArg (· ++ bytes) read').trans (List.append_assoc _ _ _)
    · rw [log, log', hooks, List.append_nil, List.append_assoc]

theorem Transcript.finish (t : Transcript H max s read) (alive : s.p.state ≠ .error) {head : HeadRead max} (body : Body max)
    (bytes : t.now.bytes = head.bytes ++ body.bytes) (log : t.now.log = head.hooks ++ body.log)
    (follows : body.Follows H head.complete) {p : Parser} (spent : body.Spent p) (start : p.state = .start)
    (accepts : ∀ event p user, (H.call event p user).1.rc = 0) :
    Nonempty (Transcript H max (hook H.logged .onMsgComplete [] ⟨p, s.user⟩).2 read) := by
  obtain ⟨q, user, same, obeys, _⟩ := hook_accepted accepts .onMsgComplete [] ⟨p, s.user⟩
  obtain ⟨none, nothing, _⟩ := t.fits alive
  rw [same]
  let message : MessageRead H max := ⟨head, body, follows, ⟨⟨.onMsgComplete, []⟩, p, 0⟩, rfl, spent⟩
  refine ⟨⟨t.messages ++ [message], .between ⟨[], by simp⟩, [], [], ?_, ?_, by simp [OfHead], fun _ => ⟨rfl, rfl, ?_⟩⟩⟩
  · refine t.bytes.trans ?_
    rw [none, bytes]
    simp [Reading.bytes, MessageRead.bytes, message]
  · simp only [t.log, nothing, log]
    simp [Reading.log, MessageRead.log, message]
  · exact obeys.state.trans start

variable (accepts : ∀ event p user, (H.call event p user).1.rc = 0)
include accepts

theorem between_advances {lead : Lead} (here : s.p.state = .start)
    (taken : turnStart H.logged s data = some after) :
    Advances H (.between lead : Reading max) s after.1 (data.take after.2) := by
  cases data with
  | nil => cases taken
  | cons byte rest =>
    simp only [turnStart] at taken
    split at taken
    · next blank =>
      cases taken
      have more : ∀ b ∈ lead.raw ++ [byte], b = CR ∨ b = LF :=
        List.forall_mem_append.mpr ⟨lead.blank, List.forall_mem_singleton.mpr blank⟩
      by_cases bad : (skipByte s.p byte).2.state = .error
      · exact .failed _ bad rfl
      · refine .silent (.between ⟨lead.raw ++ [byte], more⟩) rfl rfl ?_
        have state := (skipByte_checked s.p byte).state
        split at state
        · exact state.trans here
        · exact absurd state bad
    · cases taken
      have begun : OfHead [⟨⟨.onMsgBegin, []⟩, s.p.begin, 0⟩] := by simp [OfHead, Fired.name, HookName.ofHead]
      exact .hook accepts .onMsgBegin [] _ (.line lead _ begun) (by simp [Reading.bytes]) rfl rfl (by simp [Parser.begin])

variable [Htstring]

omit accepts in
theorem turnHead_advances (limit : s.p.config.maxLineLength = max)
    (taken : turnHead H.logged s data = some after)
    (line : ∀ line : Line max, Advances H now s (parseHeadLine H.logged line.content s) line.raw) :
    Advances H now s after.1 (data.take after.2) := by
  unfold turnHead at taken
  rw [limit] at taken
  split at taken
  · cases taken
  · cases taken
    exact .failed _ rfl rfl
  · next complete =>
    cases taken
    exact line (.of complete)

omit [Htstring] in
theorem turnBody_advances (here : s.p.state = .body) (limit : s.p.config.maxLineLength = max)
    (fits : now.Fits H s.p)
    (taken : turnBody H.logged s data = some after) : Advances H now s after.1 (data.take after.2) := by
  have same : parseBody H.logged data s = after := by
    unfold turnBody at taken
    split at taken
    · cases taken
    · split at taken
      · cases taken
      · exact Option.some.inj taken
  rw [← same]
  cases now with
  | between | line | fields => exact absurd (here.symm.trans fits) (by simp)
  | trailers | done => exact absurd (here.symm.trans fits.1) (by simp)
  | length head size delivery =>
    rw [show parseBody H.logged data s = parseDelimited H.logged data s by simp only [parseBody, fits.1.2]]
    exact length_advances accepts fits data
  | identity head pieces bodies =>
    rw [show parseBody H.logged data s = parseDelimited H.logged data s by simp only [parseBody, fits.1.2]]
    exact identity_advances accepts fits data
  | chunks head past =>
    rw [show parseBody H.logged data s = parseSizeLine H.logged data s by simp only [parseBody, fits.1.2.1, fits.1.2.2]]
    exact sizeLine_advances accepts limit fits data
  | chunk head past part =>
    have mode := fits.1.2.1
    rcases fits.1.2.2 with place | ⟨place, _⟩
    · rw [show parseBody H.logged data s = parseChunkData H.logged data s by simp only [parseBody, mode, place]]
      exact chunkData_advances accepts fits place data
    · rw [show parseBody H.logged data s = parseChunkEnd H.logged data s by simp only [parseBody, mode, place]]
      exact chunkEnd_advances accepts limit fits place data

theorem turn_transcript (t : Transcript H max s read) (limit : s.p.config.maxLineLength = max)
    (taken : turn H.logged s data = some after) :
    Nonempty (Transcript H max after.1 (read ++ data.take after.2)) := by
  have alive := turn_alive taken
  have fits := (t.fits alive).2.2
  unfold turn at taken
  split at taken
  all_goals rename_i here
  · refine t.advance alive ?_
    cases now : t.now with
    | between lead => exact between_advances accepts here taken
    | _ => simp [now, Reading.Fits, here] at fits
  · refine t.advance alive (turnHead_advances limit taken fun line => ?_)
    cases now : t.now with
    | line => exact startLine_advances accepts here line
    | _ => simp [now, Reading.Fits, here] at fits
  · refine t.advance alive (turnHead_advances limit taken fun line => ?_)
    cases now : t.now with
    | fields => exact fields_advances accepts here line
    | _ => simp [now, Reading.Fits, here] at fits
  · refine t.advance alive (turnHead_advances limit taken fun line => ?_)
    cases now : t.now with
    | trailers =>
      rw [now] at fits
      exact trailers_advances here fits.2 line
    | _ => simp [now, Reading.Fits, here] at fits
  · exact t.advance alive (turnBody_advances accepts here limit fits taken)
  · cases taken
    cases now : t.now with
    | done head body =>
      rw [now] at fits
      rw [List.take_zero, List.append_nil]
      refine t.finish alive body (by rw [now]; rfl) (by rw [now]; rfl) fits.2.1 (p := s.p.finish) ?_ rfl accepts
      exact fits.2.2.same rfl
    | _ => simp [now, Reading.Fits, here] at fits
  · cases taken

theorem path_transcript {before after : Scan (σ × List Fired) × Bytes} (t : Nonempty (Transcript H max before.1 read))
    (limit : before.1.p.config.maxLineLength = max) (path : Relation.ReflTransGen (Within H.logged) before after) :
    after.1.p.config = before.1.p.config ∧
      ∃ consumed, before.2 = consumed ++ after.2 ∧ Nonempty (Transcript H max after.1 (read ++ consumed)) := by
  induction path with
  | refl => exact ⟨rfl, [], rfl, by rwa [List.append_nil]⟩
  | @tail middle _ _ within ih =>
    obtain ⟨config, consumed, cut, ⟨t⟩⟩ := ih
    obtain ⟨paused, _, state, used, taken, rfl⟩ := within
    have kept : state.p.config = middle.1.p.config := (HookInvariant.config H.logged _).turn rfl paused taken
    refine ⟨kept.trans config, consumed ++ middle.2.take used, ?_, ?_⟩
    · rw [List.append_assoc, List.take_append_drop, ← cut]
    · rw [← List.append_assoc]
      exact turn_transcript accepts t (by rw [config, limit]) taken

theorem run_transcript (t : Nonempty (Transcript H max s read)) (sane : s.p.Sane) (limit : s.p.config.maxLineLength = max)
    (data : Bytes) :
    Nonempty (Transcript H max (runLoop H.logged (runFuel data) data s).1
      (read ++ data.take (runLoop H.logged (runFuel data) data s).2)) := by
  obtain ⟨_, last, path, ended⟩ := run_spec H.logged sane data
  obtain ⟨config, consumed, cut, reached⟩ := path_transcript accepts t limit path
  generalize runLoop H.logged (runFuel data) data s = result at *
  obtain ⟨after, used⟩ := result
  dsimp only at *
  have same : consumed = data.take used :=
    List.append_cancel_right (cut.symm.trans (List.take_append_drop used data).symm)
  rw [← same]
  cases ended with
  | completed done paused =>
    have taken : turn H.logged last (data.drop used) = some (finishMessage H.logged last, 0) := by simp only [turn, done]
    obtain ⟨t⟩ := reached
    have finished := turn_transcript accepts t (by rw [config, limit]) taken
    rwa [List.take_zero, List.append_nil] at finished
  | failed _ | paused _ | waiting _ => exact reached

omit [Htstring] in
theorem eof_transcript (t : Nonempty (Transcript H max s read)) (body : s.p.state = .body) (identity : s.p.body = .identity) :
    Nonempty (Transcript H max (hook H.logged .onMsgComplete [] ⟨{ s.p with state := .start }, s.user⟩).2 read) := by
  obtain ⟨t⟩ := t
  have alive : s.p.state ≠ .error := by simp [body]
  have fits := (t.fits alive).2.2
  cases now : t.now with
  | identity head pieces bodies =>
    rw [now] at fits
    exact t.finish alive (.identity pieces bodies) (by rw [now]; rfl) (by rw [now]; rfl) fits.2 trivial rfl accepts
  | _ => simp [now, Reading.Fits, body, identity] at fits

end

section
variable [Htstring] {σ : Type} {read : Bytes} {s : Htparser × σ × List Fired}

def Call.consumed (H : Hooks σ) (call : Call) (s : Htparser × σ) : Bytes :=
  match call with
  | .run data => data.take (htparserRun H s.1 s.2 data).2.2
  | .runEof | .pause | .resume => []

def consumeAll (H : Hooks σ) : List Call → Htparser × σ → Bytes
  | [], _ => []
  | call :: calls, s => call.consumed H s ++ consumeAll H calls (call.perform H s)

variable {H : Hooks σ} {max : Nat} (accepts : ∀ event p user, (H.call event p user).1.rc = 0)

omit [Htstring] in
theorem Transcript.obeys {s : Scan (σ × List Fired)} (t : Nonempty (Transcript H max s read)) {p : Parser}
    (obeys : Obeys s.p p) : Nonempty (Transcript H max ⟨p, s.user⟩ read) := by
  obtain ⟨messages, now, refused, extra, bytes, log, within, fits⟩ := t
  refine ⟨⟨messages, now, refused, extra, bytes, log, within, fun alive => ?_⟩⟩
  obtain ⟨none, nothing, here⟩ := fits (obeys.state ▸ alive)
  exact ⟨none, nothing, here.obeys obeys⟩

theorem perform_config (call : Call) (s : Htparser × σ) : (call.perform H s).1.config = s.1.config := by
  cases call with
  | run data => exact (HookInvariant.config H s.1.config).runLoop _ data (s := ⟨s.1.toParser, s.2⟩) rfl
  | runEof =>
    unfold Call.perform htparserRunEof
    dsimp only
    split
    · exact hook_config H .onMsgComplete [] _
    · rfl
  | pause | resume => rfl

include accepts in
theorem perform_transcript (call : Call) (sane : s.1.Sane)
    (limit : s.1.config.maxLineLength = max) (t : Nonempty (Transcript H max ⟨s.1.toParser, s.2⟩ read)) :
    Nonempty (Transcript H max ⟨(call.perform H.logged s).1.toParser, (call.perform H.logged s).2⟩
      (read ++ call.consumed H.logged s)) := by
  cases call with
  | run data => exact run_transcript accepts t sane limit data
  | runEof =>
    rw [Call.consumed, List.append_nil]
    unfold Call.perform htparserRunEof
    dsimp only
    split
    · next body => exact eof_transcript accepts t body.1 body.2
    · exact t
  | pause | resume =>
    rw [Call.consumed, List.append_nil]
    exact Transcript.obeys t ⟨rfl, rfl, rfl, rfl, rfl⟩

include accepts in
theorem performAll_transcript (calls : List Call) {type : HtpType}
    (traced : Traced type ⟨s.1.toParser, s.2⟩) (limit : s.1.config.maxLineLength = max)
    (t : Nonempty (Transcript H max ⟨s.1.toParser, s.2⟩ read)) :
    Nonempty (Transcript H max ⟨(performAll H.logged calls s).1.toParser, (performAll H.logged calls s).2⟩
      (read ++ consumeAll H.logged calls s)) := by
  induction calls generalizing s read with
  | nil =>
    rw [consumeAll, List.append_nil]
    exact t
  | cons call calls ih =>
    rw [consumeAll, ← List.append_assoc]
    refine ih (perform_traced call traced) ?_ (perform_transcript accepts call traced.sane limit t)
    rw [perform_config, limit]

/-- What a parser has consumed and the hooks it has fired are those of messages one after the other and of a part of
one more; the body hook is given the bytes between the lines that frame them, as many as were announced. -/
theorem body_bytes_conserved (accepts : ∀ event p user, (H.call event p user).1.rc = 0) (p : Htparser) (type : HtpType)
    (user : σ) (calls : List Call) :
    let start := (htparserInit p type, (user, []))
    let after := performAll H.logged calls start
    Nonempty (Transcript H p.config.maxLineLength ⟨after.1.toParser, after.2⟩ (consumeAll H.logged calls start)) := by
  intro start after
  have blank : Nonempty (Transcript H p.config.maxLineLength ⟨start.1.toParser, start.2⟩ []) :=
    ⟨⟨[], .between ⟨[], by simp⟩, [], [], rfl, rfl, by simp [OfHead], fun _ => ⟨rfl, rfl, rfl⟩⟩⟩
  exact performAll_transcript (s := start) accepts calls (init_traced p type user) rfl blank

end

def pausingHooks : Hooks Unit := ⟨fun _ => true, fun event _ _ => ({ pause := event.name == .body }, ())⟩

def splitChunk : List Call :=
  [.run (ascii "POST / HTTP/1.1\r\nTransfer-Encoding: chunked\r\n\r\n3\r\nab"), .resume, .run (ascii "c\r\n")]

def freshRequest : Htparser × Unit × List Fired := (htparserInit (htparserNew defaultConfig) .request, ((), []))

section
attribute [local instance] Plain.htstring

theorem body_bytes_conserved_chunk :
    (∀ event p user, (pausingHooks.call event p user).1.rc = 0) ∧
      Nonempty (Transcript pausingHooks (htparserNew defaultConfig).config.maxLineLength
        ⟨(performAll pausingHooks.logged splitChunk freshRequest).1.toParser,
          (performAll pausingHooks.logged splitChunk freshRequest).2⟩
        (consumeAll pausingHooks.logged splitChunk freshRequest)) := by
  have accepts : ∀ event p user, (pausingHooks.call event p user).1.rc = 0 := fun _ _ _ => rfl
  exact ⟨accepts, body_bytes_conserved accepts (htparserNew defaultConfig) .request () splitChunk⟩

end

end Evhtp
