import Evhtp.Proofs.Coherence

/-! How the bytes of a stream are cut makes no difference to the parser. Its hooks are an observer
that records every event; a driver presents the stream as a growing sequence of prefixes and calls
the parser on what is left of each until a call gets nowhere. -/

namespace Evhtp

/-- Hooks that return 0 and never pause. What else they do to the parser is up to the events so far; a body is not
theirs to skip any more once its bytes arrive. -/
structure Observer where
  present : HookName → Bool
  react : List HookEvent → HookEvent → Parser → HookReply
  accepts : ∀ history event p, (react history event p).rc = 0
  running : ∀ history event p, (react history event p).pause = false
  body : ∀ history data p, react history ⟨.body, data⟩ p = {}

/-- One more event; two adjacent pieces of a body are one. -/
def record (history : List HookEvent) (event : HookEvent) : List HookEvent :=
  match history.getLast? with
  | some last =>
    if last.name = .body ∧ event.name = .body then history.dropLast ++ [⟨.body, last.data ++ event.data⟩]
    else history ++ [event]
  | none => [event]

def mergeBody (events : List HookEvent) : List HookEvent := events.foldl record []

def Observer.hooks (o : Observer) : Hooks (List HookEvent) where
  present := o.present
  call event p events := (o.react (mergeBody events) event p, events ++ [event])

def Observer.merged (o : Observer) : Hooks (List HookEvent) where
  present := o.present
  call event p history := (o.react history event p, record history event)

structure Driven where
  p : Htparser
  events : List HookEvent
  consumed : Nat
  deriving DecidableEq, Repr

section
variable [Htstring]

def Driven.call (H : Hooks (List HookEvent)) (data : Bytes) (d : Driven) : Driven :=
  let result := htparserRun H d.p d.events data
  ⟨result.1, result.2.1, d.consumed + result.2.2⟩

/-- Call the parser on `data`, again and again, until a call consumes nothing and fires no hook. -/
def settle (H : Hooks (List HookEvent)) : Nat → Bytes → Driven → Option Driven
  | 0, _, _ => none
  | fuel + 1, data, d =>
    let after := d.call H data
    if after.consumed = d.consumed ∧ after.events.length = d.events.length then some after
    else settle H fuel (data.drop (after.consumed - d.consumed)) after

/-- Present the prefixes one after the other, each from the first byte not consumed so far. -/
def drive (H : Hooks (List HookEvent)) : List Bytes → Driven → Option Driven
  | [], d => some d
  | seen :: prefixes, d =>
    let data := seen.drop d.consumed
    match settle H (data.length + 2) data d with
    | none => none
    | some after => drive H prefixes after

/-- What an observer of two drivers can compare. The number of bytes the last call read is not part
of it, nor is what a failed parser holds. -/
structure SameOutcome (first second : Driven) : Prop where
  events : mergeBody first.events = mergeBody second.events
  error : first.p.error = second.p.error
  parser : second.p.error = .none →
    first.p.toParser = second.p.toParser ∧ first.p.totalBytesRead = second.p.totalBytesRead

inductive Htparser.Idle : Htparser → Prop
  | init (p : Htparser) (type : HtpType) : Idle (htparserInit p type)
  | run (o : Observer) {p : Htparser} (events : List HookEvent) (data : Bytes) :
      Idle p → Idle (htparserRun o.hooks p events data).1

end

theorem mergeBody_append (events : List HookEvent) (event : HookEvent) :
    mergeBody (events ++ [event]) = record (mergeBody events) event := by
  simp [mergeBody]

theorem record_body (history : List HookEvent) (first second : Bytes) :
    record (record history ⟨.body, first⟩) ⟨.body, second⟩ = record history ⟨.body, first ++ second⟩ := by
  cases found : history.getLast? with
  | none => simp [record, found]
  | some last =>
    by_cases body : last.name = .body
    · simp [record, found, body]
    · simp [record, found, body]

theorem Observer.seamless (o : Observer) :
    Seamless o.merged fun data history => if o.present .body then record history ⟨.body, data⟩ else history where
  quiet event p history := o.running history event p
  body data s := by
    unfold hook Observer.merged
    dsimp only
    split
    · simp [o.body, Parser.replied]
    · rfl
  joined first second history := by
    split
    · exact record_body history first second
    · rfl

/-- Keeping all events or only the merged ones makes no difference to the parser. -/
theorem Observer.rules (o : Observer) : HookRules o.hooks o.merged fun _ events history => mergeBody events = history := by
  refine .of_calls ?_
  rintro name data p events _ rfl
  have state := hook_state o.hooks name data ⟨p, events⟩
  by_cases present : o.present name = true
  · refine ⟨?_, ?_, ?_, state⟩ <;> simp [hook, Observer.hooks, Observer.merged, present, mergeBody_append]
  · refine ⟨?_, ?_, ?_, state⟩ <;> simp [hook, Observer.hooks, Observer.merged, present]

def Driven.scan (d : Driven) : Scan (List HookEvent) := ⟨d.p.toParser, d.events⟩

def Scan.merged (s : Scan (List HookEvent)) : Scan (List HookEvent) := ⟨s.p, mergeBody s.user⟩

theorem Observer.quiet (o : Observer) : ∀ event p events, (o.hooks.call event p events).1.pause = false :=
  fun event p events => o.running (mergeBody events) event p

section
variable [Htstring] (o : Observer)

theorem merged_steps {before after : Scan (List HookEvent) × Bytes} (running : before.1.p.flags.paused = false)
    (steps : Decoder.Steps (turn o.hooks) before after) :
    Decoder.Steps (turn o.merged) (before.1.merged, before.2) (after.1.merged, after.2) := by
  induction steps using Relation.ReflTransGen.head_induction_on with
  | refl => exact .refl
  | head next _ ih =>
    obtain ⟨state, used, taken, rfl⟩ := next
    obtain ⟨⟨state', used'⟩, taken', same⟩ := o.rules.turn rfl running taken
    have running' := (HookInvariant.running o.quiet).turn running running taken
    have reached : state' = state.merged := by
      obtain ⟨_, _⟩ := state'
      rw [Scan.merged, show state.p = _ from same.parser, show mergeBody state.user = _ from same.held]
    refine .head ⟨_, _, taken', ?_⟩ (ih running')
    rw [reached, show used = used' from same.used]

theorem merged_normal {config : Scan (List HookEvent) × Bytes} (running : config.1.p.flags.paused = false)
    (normal : Decoder.Normal (turn o.hooks) config) : Decoder.Normal (turn o.merged) (config.1.merged, config.2) := by
  unfold Decoder.Normal at normal ⊢
  cases taken : turn o.merged config.1.merged config.2 with
  | none => rfl
  | some after =>
    obtain ⟨after', taken', _⟩ := o.rules.symm.turn rfl running taken
    have normal : turn o.hooks ⟨config.1.p, config.1.user⟩ config.2 = none := normal
    rw [normal] at taken'
    cases taken'

/-- What calls on `data` come to, in the merged events. -/
structure Called (before : Driven) (data : Bytes) (after : Driven) (used : Nat) : Prop where
  between : after.p.Between
  consumed : after.consumed = before.consumed + used
  within : used ≤ data.length
  steps : Decoder.Steps (turn o.merged) (before.scan.merged, data) (after.scan.merged, data.drop used)
  config : after.p.config = before.p.config
  total : after.p.totalBytesRead = before.p.totalBytesRead + UInt64.ofNat used

theorem Called.trans {before middle after : Driven} {data : Bytes} {used used' : Nat}
    (first : Called o before data middle used) (second : Called o middle (data.drop used) after used') :
    Called o before data after (used + used') := by
  have within := second.within
  rw [List.length_drop] at within
  have bound := first.within
  refine ⟨second.between, ?_, by omega, ?_, second.config.trans first.config, ?_⟩
  · rw [second.consumed, first.consumed, Nat.add_assoc]
  · rw [← List.drop_drop]
    exact first.steps.trans second.steps
  · rw [second.total, first.total, UInt64.ofNat_add, UInt64.add_assoc]

theorem call_called {d : Driven} (data : Bytes) (between : d.p.Between) :
    ∃ used, Called o d data (d.call o.hooks data) used ∧
      (used = 0 → Decoder.Normal (turn o.hooks) ((d.call o.hooks data).scan, data)) ∧
      (Decoder.Normal (turn o.hooks) (d.scan, data) → used = 0 ∧ (d.call o.hooks data).events = d.events) := by
  obtain ⟨between', within, steps, normal⟩ := runLoop_steps (s := d.scan) o.quiet data between
  refine ⟨(runLoop o.hooks (runFuel data) data d.scan).2, ⟨between', rfl, within, merged_steps o between.running steps,
    (HookInvariant.config o.hooks _).runLoop _ _ rfl, rfl⟩, normal, fun still => ?_⟩
  have same := still.steps_eq steps
  have length := congrArg (fun config => config.2.length) same
  simp only [List.length_drop] at length
  exact ⟨by omega, congrArg (fun config => config.1.user) same⟩

theorem settle_called {fuel : Nat} (data : Bytes) {d : Driven} (between : d.p.Between)
    (enough : data.length + 2 ≤ fuel ∨ Decoder.Normal (turn o.hooks) (d.scan, data) ∧ 1 ≤ fuel) :
    ∃ after used, settle o.hooks fuel data d = some after ∧ Called o d data after used ∧
      Decoder.Normal (turn o.merged) (after.scan.merged, data.drop used) := by
  induction fuel generalizing data d with
  | zero => omega
  | succ fuel ih =>
    obtain ⟨used, called, waits, still⟩ := call_called o data between
    have count : (d.call o.hooks data).consumed - d.consumed = used := by
      rw [called.consumed]
      omega
    unfold settle
    dsimp only
    rw [count]
    split
    · next stops =>
      have none : used = 0 := by rw [← count, stops.1, Nat.sub_self]
      refine ⟨_, used, rfl, called, ?_⟩
      rw [none, List.drop_zero]
      exact merged_normal o called.between.running (waits none)
    · next moves =>
      have enough' : (data.drop used).length + 2 ≤ fuel ∨
          Decoder.Normal (turn o.hooks) ((d.call o.hooks data).scan, data.drop used) ∧ 1 ≤ fuel := by
        rcases enough with enough | ⟨normal, _⟩
        · by_cases none : used = 0
          · rw [none, List.drop_zero]
            exact .inr ⟨waits none, by omega⟩
          · have within := called.within
            rw [List.length_drop]
            exact .inl (by omega)
        · obtain ⟨none, same⟩ := still normal
          exact absurd ⟨by rw [called.consumed, none, Nat.add_zero], by rw [same]⟩ moves
      obtain ⟨after, used', settles, called', normal⟩ := ih (data.drop used) called.between enough'
      rw [List.drop_drop] at normal
      exact ⟨after, used + used', settles, called.trans o called', normal⟩

theorem idle_between {p : Htparser} (idle : p.Idle) : p.Between := by
  induction idle with
  | init p type => exact htparserInit_between p type
  | run o events data _ ih => exact (runLoop_steps (s := ⟨_, events⟩) o.quiet data ih).1

/-- After each prefix the parser is where the whole of that prefix takes it. -/
theorem drive_called {start d : Driven} {seen : Bytes} {prefixes : List Bytes}
    (unlimited : start.p.config.maxLineLength = 0) (begun : start.p.Between) (fresh : start.consumed = 0)
    (called : Called o start seen d d.consumed) (growing : (seen :: prefixes).IsChain (· <+: ·))
    (some : prefixes ≠ []) :
    ∃ after, drive o.hooks prefixes d = Option.some after ∧
      Called o start (prefixes.getLast some) after after.consumed ∧
      Decoder.Normal (turn o.merged) (after.scan.merged, (prefixes.getLast some).drop after.consumed) := by
  induction prefixes generalizing seen d with
  | nil => exact absurd rfl some
  | cons whole prefixes ih =>
    obtain ⟨⟨more, rfl⟩, growing⟩ := List.isChain_cons_cons.mp growing
    obtain ⟨after, used, settles, settled, normal⟩ :=
      settle_called o ((seen ++ more).drop d.consumed) called.between (.inl (Nat.le_refl _))
    have within := settled.within
    have consumed : d.consumed + used = after.consumed := settled.consumed.symm
    rw [List.length_drop] at within
    rw [List.drop_drop, consumed] at normal
    have joined : Called o start (seen ++ more) after after.consumed := by
      refine ⟨settled.between, by omega, ?_, ?_, settled.config.trans called.config, ?_⟩
      · have := called.within
        rw [List.length_append] at within ⊢
        omega
      · have rest := settled.steps
        rw [List.drop_drop, consumed, List.drop_append_of_le_length called.within] at rest
        refine o.seamless.coherent.feed more ⟨begun.sane, begun.running⟩ called.steps ?_ rest normal
        intro failed
        exact failed.2 ((congrArg _ called.config).trans unlimited)
      · rw [settled.total, called.total, UInt64.add_assoc, ← UInt64.ofNat_add, consumed]
    unfold drive
    dsimp only
    rw [settles]
    cases prefixes with
    | nil => exact ⟨after, rfl, joined, normal⟩
    | cons next prefixes => exact ih joined growing (by simp)

/-- The events of a stream, the parser it leaves and its error do not depend on how the stream was cut. -/
theorem fragmentation_invariant {p : Htparser} (idle : p.Idle) (unlimited : p.config.maxLineLength = 0)
    {stream : Bytes} {prefixes : List Bytes} (growing : prefixes.IsChain (· <+: ·))
    (whole : prefixes.getLast? = some stream) :
    ∃ cut one, drive o.hooks prefixes ⟨p, [], 0⟩ = some cut ∧ drive o.hooks [stream] ⟨p, [], 0⟩ = some one ∧
      SameOutcome cut one := by
  have begun := idle_between idle
  have start : Called o ⟨p, [], 0⟩ [] ⟨p, [], 0⟩ 0 :=
    ⟨begun, rfl, Nat.le_refl _, .refl, rfl, (UInt64.add_zero _).symm⟩
  have some : prefixes ≠ [] := by
    rintro rfl
    cases whole
  rw [List.getLast?_eq_getLast_of_ne_nil some, Option.some.injEq] at whole
  have outcome : ∀ parts (some : parts ≠ []), parts.IsChain (· <+: ·) → parts.getLast some = stream →
      ∃ after, drive o.hooks parts ⟨p, [], 0⟩ = Option.some after ∧ Called o ⟨p, [], 0⟩ stream after after.consumed ∧
        Decoder.Normal (turn o.merged) (after.scan.merged, stream.drop after.consumed) := by
    rintro parts some growing rfl
    refine drive_called o unlimited begun rfl start ?_ some
    cases parts with
    | nil => exact absurd rfl some
    | cons first rest => exact List.isChain_cons_cons.mpr ⟨List.nil_prefix, growing⟩
  obtain ⟨cut, cuts, called, normal⟩ := outcome prefixes some growing whole
  obtain ⟨one, ones, called', normal'⟩ := outcome [stream] (by simp) (.singleton _) rfl
  refine ⟨cut, one, cuts, ones, ?_⟩
  have same := Decoder.normal_unique called.steps called'.steps normal normal'
  have parser : cut.p.toParser = one.p.toParser := congrArg (fun config => config.1.p) same
  have events : mergeBody cut.events = mergeBody one.events := congrArg (fun config => config.1.user) same
  have length := congrArg (fun config => config.2.length) same
  simp only [List.length_drop] at length
  have consumed : cut.consumed = one.consumed := by
    have := called.within
    have := called'.within
    omega
  refine ⟨events, congrArg _ parser, fun _ => ⟨parser, ?_⟩⟩
  rw [called.total, called'.total, consumed]

end

def recorder : Observer where
  present _ := true
  react _ _ _ := {}
  accepts _ _ _ := rfl
  running _ _ _ := rfl
  body _ _ _ := rfl

theorem fragmentation_chunked_post :
    let _ := Plain.htstring
    let stream := ascii "POST / HTTP/1.1\r\nTransfer-Encoding: chunked\r\n\r\n3\r\nabc\r\n0\r\n\r\n"
    let start : Driven := ⟨htparserInit (htparserNew unlimitedConfig) .request, [], 0⟩
    ∃ cut one, drive recorder.hooks [stream.take 10, stream.take 52, stream] start = some cut ∧
      drive recorder.hooks [stream] start = some one ∧ SameOutcome cut one := by
  intro _ stream start
  refine fragmentation_invariant recorder (.init _ _) rfl ?_ rfl
  exact .cons_cons (List.take_prefix_take_left (by decide)) (.cons_cons (List.take_prefix _ _) (.singleton _))

end Evhtp
