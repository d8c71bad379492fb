import Evhtp.Proofs.HookRules
import Mathlib.Computability.Language
import Mathlib.Order.CompletePartialOrder

/-! Which hooks a parsing function fires. A function that succeeds has fired a word of its language, in
order; one that fails has fired the beginning of such a word and then records an error. -/

namespace Evhtp

open scoped Computability

/-- A hook that was fired: its arguments, the parser as it found it, and what it returned. -/
structure Fired where
  event : HookEvent
  p : Parser
  rc : Int
  deriving DecidableEq, Repr

def Fired.name (fired : Fired) : HookName := fired.event.name

/-- The hooks `H` with a record of all that are fired. A hook that is not set is recorded too; it does
nothing and succeeds. -/
def Hooks.logged {σ : Type} (H : Hooks σ) : Hooks (σ × List Fired) where
  present _ := true
  call event p s :=
    if H.present event.name then
      let result := H.call event p s.1
      (result.1, (result.2, s.2 ++ [⟨event, p, result.1.rc⟩]))
    else ({}, (s.1, s.2 ++ [⟨event, p, 0⟩]))

def only (name : HookName) : Language HookName := {[name]}

theorem mem_only (name : HookName) : [name] ∈ only name := rfl

section
variable {σ : Type} {H : Hooks σ}

theorem hook_logged (name : HookName) (data : Bytes) (s : Scan (σ × List Fired)) :
    ∃ reply user, hook H.logged name data s =
      (reply.rc == 0, ⟨s.p.replied reply, (user, s.user.2 ++ [⟨⟨name, data⟩, s.p, reply.rc⟩])⟩) := by
  by_cases present : H.present name = true
  · refine ⟨(H.call ⟨name, data⟩ s.p s.user.1).1, (H.call ⟨name, data⟩ s.p s.user.1).2, ?_⟩
    simp [hook, Hooks.logged, present]
  · refine ⟨{}, s.user.1, ?_⟩
    simp [hook, Hooks.logged, present]

theorem logged_grows (H : Hooks σ) (past : List Fired) : HookInvariant H.logged fun _ record => past <+: record.2 := by
  have kept : ∀ name data (s : Scan (σ × List Fired)), past <+: s.user.2 → past <+: (hook H.logged name data s).2.user.2 := by
    intro name data s front
    obtain ⟨reply, user, called⟩ := hook_logged (H := H) name data s
    rw [called]
    exact front.trans (List.prefix_append _ _)
  exact {
    silent := fun front _ => front
    begins := fun _ _ front => kept _ _ _ front
    host := fun _ _ _ front => kept _ _ _ front
    completes := fun _ _ front => kept _ _ _ front
    calls := fun _ _ _ front => kept _ _ _ front }

/-- What a result of the parser's leaves alone, and whether it is an error. -/
structure Settled (p : Parser) (result : Bool × Parser) : Prop where
  state : result.2.state = if result.1 then p.state else .error
  config : result.2.config = p.config
  type : result.2.type = p.type
  emptyLines : result.2.emptyLines = p.emptyLines
  passed : result.1 = true → result.2.error = p.error
  failed : result.1 = false → result.2.error ≠ .none

theorem Settled.refl (p : Parser) : Settled p (true, p) := ⟨rfl, rfl, rfl, rfl, fun _ => rfl, nofun⟩

theorem Settled.fail (p : Parser) {error : ParseError} (known : error ≠ .none) : Settled p (false, p.fail error) :=
  ⟨rfl, rfl, rfl, rfl, nofun, fun _ => known⟩

theorem Settled.trans {p : Parser} {first second : Bool × Parser} (one : Settled p first) (ok : first.1 = true)
    (two : Settled first.2 second) : Settled p second := by
  refine ⟨?_, two.config.trans one.config, two.type.trans one.type, two.emptyLines.trans one.emptyLines,
    fun passed => (two.passed passed).trans (one.passed ok), two.failed⟩
  rw [two.state, one.state, if_pos ok]

theorem Settled.replied (p : Parser) (reply : HookReply) : Settled p (reply.rc == 0, p.replied reply) := by
  by_cases accepted : reply.rc = 0
  · constructor <;> simp [Parser.replied, accepted]
  · constructor <;> simp [Parser.replied, Parser.fail, accepted]

theorem noteLengths_settled (any : Bool) (p : Parser) (elements : List Bytes) : Settled p (noteLengths any p elements) := by
  have failed : Settled p (false, p.fail .invalHdr) := .fail p (by simp)
  induction elements generalizing any p with
  | nil =>
    unfold noteLengths
    split
    · exact .refl p
    · exact failed
  | cons element rest ih =>
    unfold noteLengths
    split
    · exact failed
    · next n _ =>
      split
      · exact failed
      · have noted : Settled p (true, { p with origContentLen := n, flags := { p.flags with haveCl := true } }) :=
          ⟨rfl, rfl, rfl, rfl, fun _ => rfl, nofun⟩
        exact noted.trans rfl (ih true _ (.fail _ (by simp)))

theorem noteField_settled [Htstring] (name value : Bytes) (p : Parser) : Settled p (noteField name value p) := by
  have flags : ∀ flags, Settled p (true, p.setFlags flags) := fun _ => ⟨rfl, rfl, rfl, rfl, fun _ => rfl, nofun⟩
  unfold noteField
  split
  · split
    · exact flags _
    · exact .refl p
  · exact flags _
  · split
    · exact noteLengths_settled false p _
    · exact .refl p
  · split
    · exact flags _
    · exact .refl p
  · exact .refl p

theorem framing_settled (p : Parser) : Settled p (framing p) := by
  have failed : Settled p (false, p.fail .invalHdr) := .fail p (by simp)
  have framed : ∀ body, Settled p
      (true, { p with body, contentLen := if body = .length then p.origContentLen else 0, chunk := .size }) :=
    fun _ => ⟨rfl, rfl, rfl, rfl, fun _ => rfl, nofun⟩
  unfold framing
  dsimp only
  split
  · exact framed _
  · split
    · exact framed _
    · split
      · split
        · exact failed
        · split
          · exact failed
          · exact framed _
      · split
        · exact framed _
        · split <;> exact framed _

/-- A parsing function that fires the hooks of `L`; `host` says whether the hook for the host is one of them. -/
structure Emits (host : Bool) (L : Language HookName) (s : Scan (σ × List Fired))
    (result : Bool × Scan (σ × List Fired)) : Prop where
  settled : Settled s.p (result.1, result.2.p)
  host : result.1 = true → result.2.p.flags.haveHost = (s.p.flags.haveHost || host)
  fired : ∃ fired, result.2.user.2 = s.user.2 ++ fired ∧ (∀ f ∈ fired, f.p.error = s.p.error) ∧
    (∀ f ∈ fired.dropLast, f.rc = 0) ∧
    (result.1 = true → fired.map Fired.name ∈ L ∧ ∀ f ∈ fired, f.rc = 0) ∧
    (result.1 = false → ∃ more, fired.map Fired.name ++ more ∈ L)

namespace Emits

variable {host host' : Bool} {L M : Language HookName} {s : Scan (σ × List Fired)}

theorem hook (name : HookName) (data : Bytes) (s : Scan (σ × List Fired)) :
    Emits false (only name) s (hook H.logged name data s) := by
  obtain ⟨reply, user, same⟩ := hook_logged (H := H) name data s
  rw [same]
  refine ⟨.replied s.p reply, fun accepted => ?_, [⟨⟨name, data⟩, s.p, reply.rc⟩], rfl, by simp, by simp, ?_, ?_⟩
  · have zero : reply.rc = 0 := by simpa using accepted
    simp [Parser.replied, zero]
  · intro accepted
    exact ⟨mem_only name, by simpa using accepted⟩
  · exact fun _ => ⟨[], mem_only name⟩

theorem done (s : Scan (σ × List Fired)) : Emits false 1 s (true, s) :=
  ⟨.refl s.p, fun _ => (Bool.or_false _).symm, [], by simp, by simp, by simp, fun _ => ⟨rfl, by simp⟩, nofun⟩

theorem fail {error : ParseError} (known : error ≠ .none) (some : ∃ word, word ∈ L) : Emits host L s (s.fail error) :=
  ⟨.fail s.p known, nofun, [], by simp [Scan.fail], by simp, by simp, nofun, fun _ => some⟩

theorem mono {result : Bool × Scan (σ × List Fired)} (emits : Emits host L s result) (within : L ≤ M) :
    Emits host M s result := by
  obtain ⟨fired, log, errors, clean, passed, failed⟩ := emits.fired
  exact ⟨emits.settled, emits.host, fired, log, errors, clean, fun ok => ⟨within (passed ok).1, (passed ok).2⟩,
    fun bad => (failed bad).imp fun _ word => within word⟩

theorem after {p : Parser} {result : Bool × Scan (σ × List Fired)} (emits : Emits host L ⟨p, s.user⟩ result)
    (settled : Settled s.p (true, p)) (same : p.flags.haveHost = s.p.flags.haveHost) : Emits host L s result := by
  obtain ⟨fired, log, errors, rest⟩ := emits.fired
  refine ⟨settled.trans rfl emits.settled, fun ok => ?_, fired, log, fun f member => ?_, rest⟩
  · rw [emits.host ok, same]
  · rw [errors f member, settled.passed rfl]

theorem andThen {first : Bool × Scan (σ × List Fired)} {next : Scan (σ × List Fired) → Bool × Scan (σ × List Fired)}
    (emits : Emits host L s first) (some : ∃ word, word ∈ M)
    (rest : ∀ after, first = (true, after) → Emits host' M after (next after)) :
    Emits (host || host') (L * M) s (andThen first next) := by
  obtain ⟨fired, log, errors, clean, passed, failed⟩ := emits.fired
  unfold Evhtp.andThen
  by_cases ok : first.1 = true
  · rw [if_pos ok]
    have later := rest first.2 (Prod.ext ok rfl)
    obtain ⟨fired', log', errors', clean', passed', failed'⟩ := later.fired
    obtain ⟨word, zeros⟩ := passed ok
    refine ⟨emits.settled.trans ok later.settled, fun good => ?_, fired ++ fired', ?_, fun f member => ?_,
      fun f member => ?_, fun good => ?_, fun bad => ?_⟩
    · rw [later.host good, emits.host ok, Bool.or_assoc]
    · rw [log', log, List.append_assoc]
    · rcases List.mem_append.mp member with member | member
      · exact errors f member
      · exact (errors' f member).trans (emits.settled.passed ok)
    · rw [List.dropLast_append] at member
      split at member
      · exact clean f member
      · exact (List.mem_append.mp member).elim (zeros f) (clean' f)
    · rw [List.map_append]
      refine ⟨Language.append_mem_mul word (passed' good).1, fun f member => ?_⟩
      exact (List.mem_append.mp member).elim (zeros f) ((passed' good).2 f)
    · obtain ⟨more, word'⟩ := failed' bad
      refine ⟨more, ?_⟩
      rw [List.map_append, List.append_assoc]
      exact Language.append_mem_mul word word'
  · rw [if_neg ok]
    refine ⟨emits.settled, fun good => absurd good ok, fired, log, errors, clean, fun good => absurd good ok, fun bad => ?_⟩
    obtain ⟨more, word⟩ := failed bad
    obtain ⟨last, final⟩ := some
    refine ⟨more ++ last, ?_⟩
    rw [← List.append_assoc]
    exact Language.append_mem_mul word final

end Emits

end

theorem some_only (name : HookName) : ∃ word, word ∈ only name := ⟨_, mem_only name⟩

theorem some_one : ∃ word, word ∈ (1 : Language HookName) := ⟨[], rfl⟩

theorem some_add {L M : Language HookName} (some : ∃ word, word ∈ L) : ∃ word, word ∈ L + M :=
  some.imp fun _ word => Or.inl word

theorem some_mul {L M : Language HookName} (first : ∃ word, word ∈ L) (second : ∃ word, word ∈ M) :
    ∃ word, word ∈ L * M := by
  obtain ⟨_, first⟩ := first
  obtain ⟨_, second⟩ := second
  exact ⟨_, Language.append_mem_mul first second⟩

theorem some_kstar (L : Language HookName) : ∃ word, word ∈ L∗ := ⟨[], Language.nil_mem_kstar L⟩

def maybe (L : Language HookName) : Language HookName := 1 + L

theorem one_le_maybe (L : Language HookName) : 1 ≤ maybe L := fun _ => Or.inl

theorem le_maybe (L : Language HookName) : L ≤ maybe L := fun _ => Or.inr

theorem some_maybe (L : Language HookName) : ∃ word, word ∈ maybe L := ⟨[], Or.inl rfl⟩

def hostPortEvents : Language HookName := only .host * maybe (only .port)

def pathEvents : Language HookName := only .path * (maybe (only .args) * only .uri)

def authorityEvents : Language HookName := hostPortEvents * (only .path * only .uri)

/-- The hooks of a request target; the authority form has no arguments. -/
def targetEvents : Language HookName := maybe (only .scheme * hostPortEvents) * pathEvents + authorityEvents

def startEvents : HtpType → Language HookName
  | .request => only .method * targetEvents
  | .response => 1

def fieldEvents : Language HookName := only .hdrKey * (maybe (only .hostname) * only .hdrVal)

def trailerEvents : Language HookName := only .hdrKey * only .hdrVal

theorem some_hostPort : ∃ word, word ∈ hostPortEvents := some_mul (some_only _) (some_maybe _)

theorem some_path : ∃ word, word ∈ pathEvents := some_mul (some_only _) (some_mul (some_maybe _) (some_only _))

theorem some_target : ∃ word, word ∈ targetEvents := some_add (some_mul (some_maybe _) some_path)

theorem some_start (type : HtpType) : ∃ word, word ∈ startEvents type := by
  cases type with
  | request => exact some_mul (some_only _) some_target
  | response => exact some_one

theorem path_le_target : pathEvents ≤ targetEvents := by
  intro word member
  exact Or.inl (Language.append_mem_mul (one_le_maybe _ (rfl : ([] : List HookName) ∈ (1 : Language HookName))) member)

theorem absolute_le_target : only .scheme * (hostPortEvents * pathEvents) ≤ targetEvents := by
  intro word member
  rw [← mul_assoc] at member
  obtain ⟨first, start, rest, path, rfl⟩ := Language.mem_mul.mp member
  exact Or.inl (Language.append_mem_mul (le_maybe _ start) path)

theorem bare_le_path : only .path * only .uri ≤ pathEvents := by
  intro word member
  obtain ⟨first, path, rest, uri, rfl⟩ := Language.mem_mul.mp member
  refine Language.append_mem_mul path ?_
  exact Language.append_mem_mul (one_le_maybe _ (rfl : ([] : List HookName) ∈ (1 : Language HookName))) uri

section
variable {σ : Type} {H : Hooks σ} {s : Scan (σ × List Fired)}

theorem setScheme_emits {L : Language HookName} (scheme : HtpScheme)
    {result : Bool × Scan (σ × List Fired)} (emits : Emits false L (s.setScheme scheme) result) : Emits false L s result :=
  emits.after ⟨rfl, rfl, rfl, rfl, fun _ => rfl, nofun⟩ rfl

theorem emitHostPort_emits (uri : ParsedUri) (s : Scan (σ × List Fired)) :
    Emits false hostPortEvents s (emitHostPort H.logged uri s) := by
  refine (Emits.hook .host uri.host s).andThen (some_maybe _) fun s _ => ?_
  split
  · split
    · exact (Emits.hook .port _ _).mono (le_maybe _)
    · exact (Emits.done _).mono (one_le_maybe _)
  · exact (Emits.done _).mono (one_le_maybe _)

theorem emitOriginForm_emits (target : Bytes) (s : Scan (σ × List Fired)) :
    Emits false pathEvents s (emitOriginForm H.logged target s) := by
  refine setScheme_emits .none ?_
  unfold emitOriginForm
  dsimp only
  refine (Emits.hook .path _ _).andThen (some_mul (some_maybe _) (some_only _)) fun s _ => ?_
  refine Emits.andThen (?_ : Emits false (maybe (only .args)) s _) (some_only _) fun s _ => Emits.hook .uri _ _
  split
  · exact (Emits.done _).mono (one_le_maybe _)
  · exact (Emits.hook .args _ _).mono (le_maybe _)

theorem parseStatusLine_emits (line : Bytes) (s : Scan (σ × List Fired)) : Emits false 1 s (parseStatusLine line s) := by
  unfold parseStatusLine
  split
  · exact .fail (by simp) some_one
  · split
    · exact .fail (by simp) some_one
    · next major minor _ =>
      have versioned : ∀ {result}, Emits false 1 ⟨{ s.p with major, minor }, s.user⟩ result → Emits false 1 s result :=
        fun emits => emits.after ⟨rfl, rfl, rfl, rfl, fun _ => rfl, nofun⟩ rfl
      dsimp only
      split
      · split
        · next d1 d2 d3 _ _ _ =>
          refine versioned ?_
          refine Emits.after (p := { s.p with major, minor, status := digitVal d1 * 100 + digitVal d2 * 10 + digitVal d3 }) ?_
            ⟨rfl, rfl, rfl, rfl, fun _ => rfl, nofun⟩ rfl
          split
          · exact .fail (by simp) some_one
          · exact .done _
        · exact versioned (.fail (by simp) some_one)
      · exact versioned (.fail (by simp) some_one)

variable [Htstring]

theorem emitAbsoluteForm_emits (target : Bytes) (uri : ParsedUri) (s : Scan (σ × List Fired)) :
    Emits false targetEvents s (emitAbsoluteForm H.logged target uri s) := by
  refine setScheme_emits (schemeFrom uri.scheme) ?_
  unfold emitAbsoluteForm
  dsimp only
  split
  · exact .fail (by simp) some_target
  · refine Emits.mono ?_ absolute_le_target
    refine (Emits.hook .scheme _ _).andThen (some_mul some_hostPort some_path) fun s _ => ?_
    refine (emitHostPort_emits uri _).andThen some_path fun s _ => ?_
    refine (Emits.hook .path _ _).andThen (some_mul (some_maybe _) (some_only _)) fun s _ => ?_
    refine Emits.andThen (?_ : Emits false (maybe (only .args)) s _) (some_only _) fun s _ => Emits.hook .uri _ _
    split
    · exact (Emits.hook .args _ _).mono (le_maybe _)
    · exact (Emits.done _).mono (one_le_maybe _)

theorem emitTarget_emits (target : Bytes) (s : Scan (σ × List Fired)) :
    Emits false targetEvents s (emitTarget H.logged target s) := by
  unfold emitTarget
  split
  · exact (emitOriginForm_emits target s).mono path_le_target
  · split
    · refine (setScheme_emits .none ?_).mono (bare_le_path.trans path_le_target)
      exact (Emits.hook .path _ _).andThen (some_only _) fun s _ => Emits.hook .uri _ _
    · dsimp only
      split
      · exact .fail (by simp) some_target
      · split
        · refine (setScheme_emits .none ?_).mono (fun _ => Or.inr : authorityEvents ≤ targetEvents)
          refine (emitHostPort_emits _ _).andThen (some_mul (some_only _) (some_only _)) fun s _ => ?_
          exact (Emits.hook .path _ _).andThen (some_only _) fun s _ => Emits.hook .uri _ _
        · exact emitAbsoluteForm_emits target _ s

theorem parseStartLine_emits (line : Bytes) (s : Scan (σ × List Fired)) :
    Emits false (startEvents s.p.type) s (parseStartLine H.logged line s) := by
  unfold parseStartLine
  split
  · next request =>
    have some : ∃ word, word ∈ startEvents s.p.type := some_start _
    rw [request] at some ⊢
    unfold parseRequestLine
    dsimp only
    refine Emits.after (p := { s.p with method := methodFrom (nextToken line).1 }) ?_
      ⟨rfl, rfl, rfl, rfl, fun _ => rfl, nofun⟩ rfl
    split
    · exact .fail (by simp) some
    · split
      · exact .fail (by simp) some
      · split
        · exact .fail (by simp) some
        · next major minor _ =>
          refine Emits.after (p := { s.p with method := methodFrom (nextToken line).1, major, minor }) ?_
            ⟨rfl, rfl, rfl, rfl, fun _ => rfl, nofun⟩ rfl
          exact (Emits.hook .method _ _).andThen some_target fun s _ => emitTarget_emits _ s
  · next response =>
    rw [response]
    exact parseStatusLine_emits line s

/-- The field that names the host, if none has named it before. -/
def NamesHost (name : Bytes) (p : Parser) : Prop :=
  name.length = 4 ∧ p.flags.haveHost = false ∧ Htstring.equalsi name (ascii "Host") = true

theorem noteHeader_plain (name value : Bytes) (plain : ¬NamesHost name s.p) :
    Emits false 1 s (noteHeader H.logged name value s) := by
  unfold noteHeader
  split
  · next four =>
    split
    · next fresh => exact absurd ⟨four, fresh.1, fresh.2⟩ plain
    · exact .done s
  · have same := (noteField_checked name value s.p).silent.haveHost
    refine ⟨noteField_settled name value s.p, fun _ => ?_, [], by simp, by simp, by simp, fun _ => ⟨rfl, by simp⟩,
      fun _ => some_one⟩
    rw [Bool.or_false]
    exact same

theorem noteHeader_host (name value : Bytes) (names : NamesHost name s.p) :
    Emits true (only .hostname) s (noteHeader H.logged name value s) := by
  have called := Emits.hook (H := H) .hostname value ⟨s.p.sawHost, s.user⟩
  unfold noteHeader
  rw [if_pos names.1, if_pos ⟨names.2.1, names.2.2⟩]
  have saw : Settled s.p (true, s.p.sawHost) := ⟨rfl, rfl, rfl, rfl, fun _ => rfl, nofun⟩
  refine ⟨saw.trans rfl called.settled, fun ok => ?_, called.fired⟩
  rw [called.host ok, Bool.or_true]
  rfl

/-- A field either leaves the host alone or is the first one that names it. -/
theorem parseHeader_emits (line : Bytes) (trailer : Bool) (s : Scan (σ × List Fired)) :
    Emits false trailerEvents s (parseHeader H.logged line trailer s) ∨
      trailer = false ∧ s.p.flags.haveHost = false ∧
        Emits true (only .hdrKey * (only .hostname * only .hdrVal)) s (parseHeader H.logged line trailer s) := by
  have some : ∃ word, word ∈ trailerEvents := some_mul (some_only _) (some_only _)
  unfold parseHeader
  dsimp only
  split
  · exact .inl (.fail (by simp) some)
  · next rest _ =>
    split
    · exact .inl (.fail (by simp) some)
    · have key := Emits.hook (H := H) .hdrKey (line.takeWhile (· != COLON)) s
      have kept : ∀ {after}, hook H.logged .hdrKey (line.takeWhile (· != COLON)) s = (true, after) →
          after.p.flags.haveHost = s.p.flags.haveHost := by
        intro after same
        have host := key.host
        rw [same] at host
        exact (host rfl).trans (Bool.or_false _)
      by_cases names : trailer = false ∧ NamesHost (line.takeWhile (· != COLON)) s.p
      · obtain ⟨rfl, names⟩ := names
        refine .inr ⟨rfl, names.2.1, ?_⟩
        refine key.andThen (some_mul (some_only _) (some_only _)) fun after same => ?_
        have fresh : NamesHost (line.takeWhile (· != COLON)) after.p :=
          ⟨names.1, (kept same).trans names.2.1, names.2.2⟩
        rw [if_neg (by simp)]
        exact (noteHeader_host _ _ fresh).andThen (some_only _) fun s _ => Emits.hook .hdrVal _ s
      · refine .inl (key.andThen (some_only _) fun after same => ?_)
        have plain : Emits false 1 after
            (if trailer = true then (true, after)
              else noteHeader H.logged (line.takeWhile (· != COLON)) (trimBlanks rest) after) := by
          split
          · exact .done after
          · next head =>
            refine noteHeader_plain _ _ fun fresh => names ⟨by simpa using head, ?_⟩
            exact ⟨fresh.1, (kept same).symm.trans fresh.2.1, fresh.2.2⟩
        have both := plain.andThen (some_only _) fun s _ => Emits.hook (H := H) .hdrVal (trimBlanks rest) s
        rwa [one_mul] at both

end

end Evhtp
