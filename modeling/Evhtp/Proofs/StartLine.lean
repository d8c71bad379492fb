import Evhtp.Proofs.HeadFields
import Evhtp.Proofs.Numbers

/-! Start lines. Hooks that leave the parser alone have no say in whether a start line is accepted, and
an accepted one leaves of the parser's message state only what the line says. -/

namespace Evhtp

def StartOnly (p q : Parser) : Prop :=
  q.resume = { p.resume with
    method := q.method, scheme := q.scheme, status := q.status, major := q.major, minor := q.minor
    state := q.state, error := q.error }

theorem StartOnly.trans {p q r : Parser} (first : StartOnly p q) (second : StartOnly q r) : StartOnly p r := by
  unfold StartOnly at *
  rw [second, first]

theorem StartOnly.of_same {p q : Parser} (same : q.resume = p.resume) : StartOnly p q := by
  have method : q.method = p.method := (congrArg Parser.method same :)
  have scheme : q.scheme = p.scheme := (congrArg Parser.scheme same :)
  have status : q.status = p.status := (congrArg Parser.status same :)
  have major : q.major = p.major := (congrArg Parser.major same :)
  have minor : q.minor = p.minor := (congrArg Parser.minor same :)
  have state : q.state = p.state := (congrArg Parser.state same :)
  have error : q.error = p.error := (congrArg Parser.error same :)
  unfold StartOnly
  rw [same, method, scheme, status, major, minor, state, error]
  rfl

def HookName.inStart : HookName → Bool
  | .onMsgBegin | .method | .scheme | .host | .port | .path | .args | .uri | .onHdrsBegin => true
  | _ => false

/-- A property of the hooks' state that those hooks keep. -/
def Hooks.KeepsStart {σ : Type} (H : Hooks σ) (U : σ → Prop) : Prop :=
  ∀ event p s, event.name.inStart = true → U s → U (H.call event p s).2

theorem Hooks.Keeps.start {σ : Type} {H : Hooks σ} {U : σ → Prop} (keeps : H.Keeps U) : H.KeepsStart U := by
  intro event p s starts held
  refine keeps event p s ?_ held
  rintro complete
  simp [complete, HookName.inStart] at starts

theorem Hooks.KeepsStart.hook {σ : Type} {H : Hooks σ} {U : σ → Prop} (keeps : H.KeepsStart U) {name : HookName}
    (data : Bytes) {s : Scan σ} (starts : name.inStart = true) (held : U s.user) : U (hook H name data s).2.user := by
  rw [Evhtp.hook]
  split
  · exact keeps _ _ _ starts held
  · exact held

structure Started {σ : Type} (H : Hooks σ) (ok : Bool) (s : Scan σ) (result : Bool × Scan σ) : Prop where
  accepted : result.1 = ok
  only : StartOnly s.p result.2.p
  method : result.2.p.method = s.p.method
  state : result.2.p.state = if ok then s.p.state else .error
  error : ok = true → result.2.p.error = s.p.error
  kept : ∀ U, H.KeepsStart U → U s.user → U result.2.user

section
variable {σ : Type} {H : Hooks σ} {s : Scan σ}

theorem Started.andThen {ok : Bool} {first : Bool × Scan σ} {next : Scan σ → Bool × Scan σ}
    (started : Started H true s first)
    (rest : ∀ t, t.p.method = s.p.method → Started H ok t (next t)) : Started H ok s (andThen first next) := by
  have later := rest first.2 started.method
  rw [Evhtp.andThen, if_pos started.accepted]
  refine ⟨later.accepted, started.only.trans later.only, later.method.trans started.method, ?_,
    fun ok => (later.error ok).trans (started.error rfl), fun U keeps held => later.kept U keeps (started.kept U keeps held)⟩
  rw [later.state, started.state, if_pos rfl]

theorem Started.refl (s : Scan σ) : Started H true s (true, s) :=
  ⟨rfl, rfl, rfl, rfl, fun _ => rfl, fun _ _ held => held⟩

theorem Started.fail (s : Scan σ) (error : ParseError) : Started H false s (s.fail error) :=
  ⟨rfl, rfl, rfl, rfl, fun impossible => (by cases impossible), fun _ _ held => held⟩

theorem Started.setScheme {ok : Bool} {scheme : HtpScheme} {result : Bool × Scan σ}
    (started : Started H ok (s.setScheme scheme) result) : Started H ok s result :=
  ⟨started.accepted, started.only, started.method, started.state, started.error, started.kept⟩

variable (attentive : H.Attentive)
include attentive

theorem Hooks.Attentive.started (name : HookName) (data : Bytes) (s : Scan σ) (starts : name.inStart = true) :
    Started H true s (Evhtp.hook H name data s) := by
  obtain ⟨ok, same⟩ := attentive.hook name data s
  exact ⟨ok, .of_same same, (congrArg Parser.method same :), (congrArg Parser.state same :),
    fun _ => (congrArg Parser.error same :), fun U keeps held => keeps.hook data starts held⟩

theorem emitHostPort_started (uri : ParsedUri) (s : Scan σ) : Started H true s (emitHostPort H uri s) := by
  refine (attentive.started .host _ s rfl).andThen fun t _ => ?_
  split
  · split
    · exact attentive.started .port _ t rfl
    · exact .refl t
  · exact .refl t

variable [Htstring]

def targetOk (method : HtpMethod) (target : Bytes) : Bool :=
  let uri := Htstring.parseUriView target (method == .CONNECT)
  target.head? == some 47 || target == ascii "*" ||
    (!uri.hasError && (uri.isAuthorityForm || schemeFrom uri.scheme != .unknown))

theorem emitTarget_started (target : Bytes) (s : Scan σ) :
    Started H (targetOk s.p.method target) s (emitTarget H target s) := by
  unfold emitTarget
  split
  · next origin =>
    rw [show targetOk s.p.method target = true by simp [targetOk, origin]]
    unfold emitOriginForm
    refine .setScheme ((attentive.started .path _ _ rfl).andThen fun t _ => ?_)
    refine Started.andThen ?_ fun t _ => attentive.started .uri _ t rfl
    split
    · exact .refl t
    · exact attentive.started .args _ t rfl
  · next notOrigin =>
    split
    · next asterisk =>
      rw [show targetOk s.p.method target = true by simp [targetOk, asterisk]]
      refine .setScheme ((attentive.started .path _ _ rfl).andThen fun t _ => ?_)
      exact attentive.started .uri _ t rfl
    · next notAsterisk =>
      dsimp only
      split
      · next bad =>
        rw [show targetOk s.p.method target = false by simp [targetOk, notOrigin, notAsterisk, bad]]
        exact .fail s _
      · next good =>
        split
        · next authority =>
          rw [show targetOk s.p.method target = true by simp [targetOk, good, authority]]
          refine .setScheme ((emitHostPort_started attentive _ _).andThen fun t _ => ?_)
          exact (attentive.started .path _ t rfl).andThen fun t _ => attentive.started .uri _ t rfl
        · next notAuthority =>
          unfold emitAbsoluteForm
          dsimp only
          split
          · next unknown =>
            rw [show targetOk s.p.method target = false by
              simp [targetOk, notOrigin, notAsterisk, good, notAuthority, unknown]]
            exact .setScheme (.fail _ _)
          · next known =>
            rw [show targetOk s.p.method target = true by simp [targetOk, good, notAuthority, known]]
            refine .setScheme ((attentive.started .scheme _ _ rfl).andThen fun t _ => ?_)
            refine (emitHostPort_started attentive _ t).andThen fun t _ => ?_
            refine (attentive.started .path _ t rfl).andThen fun t _ => ?_
            refine Started.andThen ?_ fun t _ => attentive.started .uri _ t rfl
            split
            · exact attentive.started .args _ t rfl
            · exact .refl t

def requestLineOk (line : Bytes) : Bool :=
  let method := nextToken line
  let target := nextToken method.2
  let version := nextToken target.2
  methodFrom method.1 != .UNKNOWN && target.1 != [] && version.2 == [] && (parseVersion version.1).isSome &&
    targetOk (methodFrom method.1) target.1

theorem parseRequestLine_started (line : Bytes) (s : Scan σ) :
    Started H (requestLineOk line) { s with p := { s.p with method := methodFrom (nextToken line).1 } }
      (parseRequestLine H line s) := by
  unfold parseRequestLine
  dsimp only
  split
  · next unknown =>
    rw [show requestLineOk line = false by simp [requestLineOk, unknown]]
    exact .fail _ _
  · next known =>
    split
    · next bad =>
      rw [show requestLineOk line = false by
        rcases bad with bad | bad <;> simp [requestLineOk, bad]]
      exact .fail _ _
    · next good =>
      obtain ⟨some, none⟩ := not_or.mp good
      have none : (nextToken (nextToken (nextToken line).2).2).2 = [] := by simpa using none
      split
      · next version =>
        rw [show requestLineOk line = false by simp [requestLineOk, version]]
        exact .fail _ _
      · next major minor version =>
        rw [show requestLineOk line = targetOk (methodFrom (nextToken line).1) (nextToken (nextToken line).2).1 by
          simp [requestLineOk, known, some, none, version]]
        have called := attentive.started .method (nextToken line).1
          { s with p := { s.p with method := methodFrom (nextToken line).1, major, minor } } rfl
        have emitted : ∀ t : Scan σ, t.p.method = methodFrom (nextToken line).1 →
            Started H (targetOk (methodFrom (nextToken line).1) (nextToken (nextToken line).2).1) t
              (emitTarget H (nextToken (nextToken line).2).1 t) := by
          intro t method
          rw [← method]
          exact emitTarget_started attentive _ t
        have started := called.andThen emitted
        exact ⟨started.accepted, started.only, started.method, started.state, started.error, started.kept⟩

end

structure StatusLine where
  major : Nat
  minor : Nat
  code : Nat
  reason : Option Bytes
  version : 1 ≤ major ∧ major ≤ 9 ∧ minor ≤ 9
  digits : 100 ≤ code ∧ code ≤ 999

def versionBytes (major minor : Nat) : Bytes := ascii "HTTP/" ++ [digitChar major, 46, digitChar minor]

def StatusLine.bytes (line : StatusLine) : Bytes :=
  versionBytes line.major line.minor ++ [SP, digitChar (line.code / 100), digitChar (line.code / 10 % 10),
    digitChar (line.code % 10)] ++ line.reason.elim [] (SP :: ·)

theorem versionBytes_eq (major minor : Nat) :
    versionBytes major minor = [72, 84, 84, 80, 47, digitChar major, 46, digitChar minor] := rfl

theorem parseVersion_bytes {major minor : Nat} (version : 1 ≤ major ∧ major ≤ 9 ∧ minor ≤ 9) :
    parseVersion (versionBytes major minor) = some (major, minor) := by
  have first := digitChar_digit (n := major) (by omega)
  have second := digitChar_digit (n := minor) (by omega)
  have nonzero : digitChar major ≠ 48 := by
    rw [ne_eq, digitChar_zero (by omega)]
    omega
  rw [versionBytes_eq, parseVersion, if_pos ⟨rfl, first.1, rfl, second.1, nonzero⟩, first.2, second.2]

def requestLine (method target : Bytes) (major minor : Nat) : Bytes :=
  method ++ SP :: (target ++ SP :: versionBytes major minor)

section
variable {word : Bytes} (spaceless : SP ∉ word)
include spaceless

theorem spaceless_kept : ∀ byte ∈ word, (byte != SP) = true := by
  intro byte member
  apply bne_iff_ne.mpr
  intro space
  exact spaceless (space ▸ member)

theorem dropWhile_spaceless (rest : Bytes) (nonempty : word ≠ []) :
    (word ++ rest).dropWhile (· == SP) = word ++ rest := by
  obtain ⟨first, others, rfl⟩ := List.exists_cons_of_ne_nil nonempty
  exact List.dropWhile_cons_of_neg (by simpa using spaceless_kept spaceless first List.mem_cons_self)

theorem nextToken_word (rest : Bytes) (nonempty : word ≠ []) :
    nextToken (word ++ SP :: rest) = (word, rest.dropWhile (· == SP)) := by
  have kept := spaceless_kept spaceless
  have start := dropWhile_spaceless spaceless (SP :: rest) nonempty
  have taken : (word ++ SP :: rest).takeWhile (· != SP) = word ∧ (word ++ SP :: rest).dropWhile (· != SP) = SP :: rest :=
    takeWhile_append_stop kept (by simp)
  simp [nextToken, start, taken]

theorem nextToken_last (nonempty : word ≠ []) : nextToken word = (word, []) := by
  have kept := spaceless_kept spaceless
  have start := dropWhile_spaceless spaceless [] nonempty
  rw [List.append_nil] at start
  have taken : word.takeWhile (· != SP) = word := List.takeWhile_eq_self_iff.mpr kept
  have rest : word.dropWhile (· != SP) = [] := List.dropWhile_eq_nil_iff.mpr kept
  simp only [nextToken, start, taken, rest, List.dropWhile_nil]

end

theorem parseRequestLine_requestLine [Htstring] {σ : Type} {H : Hooks σ} {method target : Bytes} {major minor : Nat}
    (known : methodFrom method ≠ .UNKNOWN) (spaceless : SP ∉ method ∧ SP ∉ target) (nonempty : method ≠ [] ∧ target ≠ [])
    (version : 1 ≤ major ∧ major ≤ 9 ∧ minor ≤ 9) (s : Scan σ) :
    parseRequestLine H (requestLine method target major minor) s =
      andThen (hook H .method method { s with p := { s.p with method := methodFrom method, major, minor } }) fun s =>
        emitTarget H target s := by
  have digits : SP ∉ versionBytes major minor := by
    have digit : ∀ n < 10, SP ≠ digitChar n := by decide
    have first := digit major (by omega)
    have second := digit minor (by omega)
    rw [versionBytes_eq]
    simp [first, second]
    decide
  have written : versionBytes major minor ≠ [] := by simp [versionBytes_eq]
  have first : nextToken (requestLine method target major minor) = (method, target ++ SP :: versionBytes major minor) := by
    rw [requestLine, nextToken_word spaceless.1 _ nonempty.1, dropWhile_spaceless spaceless.2 _ nonempty.2]
  have second : nextToken (target ++ SP :: versionBytes major minor) = (target, versionBytes major minor) := by
    have start := dropWhile_spaceless digits [] written
    rw [List.append_nil] at start
    rw [nextToken_word spaceless.2 _ nonempty.2, start]
  have third : nextToken (versionBytes major minor) = (versionBytes major minor, []) := nextToken_last digits written
  simp only [parseRequestLine, first, second, third, known, nonempty.2, parseVersion_bytes version]
  simp

theorem parseVersion_accepts {text : Bytes} {major minor : Nat} (parsed : parseVersion text = some (major, minor)) :
    (1 ≤ major ∧ major ≤ 9 ∧ minor ≤ 9) ∧ text = versionBytes major minor := by
  unfold parseVersion at parsed
  split at parsed
  next h t1 t2 p slash first dot second =>
    split at parsed
    next held =>
      obtain ⟨name, digit, point, digit', nonzero⟩ := held
      cases parsed
      have := digitVal_lt digit
      have := digitVal_lt digit'
      have : digitVal first ≠ 0 := by
        rwa [ne_eq, ← digitChar_zero (by omega), digitChar_digitVal digit]
      refine ⟨by omega, ?_⟩
      rw [versionBytes, ← name, digitChar_digitVal digit, digitChar_digitVal digit', point]
      rfl
    next => cases parsed
  next => cases parsed

section
variable {σ : Type} {H : Hooks σ} {s : Scan σ} {line : Bytes}

theorem StatusLine.bytes_split (line : StatusLine) : line.bytes.take 8 = versionBytes line.major line.minor ∧
    line.bytes.drop 8 = SP :: digitChar (line.code / 100) :: digitChar (line.code / 10 % 10) ::
      digitChar (line.code % 10) :: line.reason.elim [] (SP :: ·) := by
  simp [StatusLine.bytes, versionBytes_eq]

theorem parseStatusLine_bytes (line : StatusLine) (s : Scan σ) : parseStatusLine line.bytes s =
    (true, { s with p := { s.p with major := line.major, minor := line.minor, status := line.code } }) := by
  obtain ⟨front, back⟩ := line.bytes_split
  have := line.digits
  have first := digitChar_digit (n := line.code / 100) (by omega)
  have second := digitChar_digit (n := line.code / 10 % 10) (by omega)
  have third := digitChar_digit (n := line.code % 10) (by omega)
  have reason : line.reason.elim [] (SP :: ·) = [] ∨ (line.reason.elim [] (SP :: ·)).head? = some SP := by
    cases line.reason <;> simp
  have value : line.code / 100 * 100 + line.code / 10 % 10 * 10 + line.code % 10 = line.code := by omega
  have long : ¬line.bytes.length < 12 := by
    simp [StatusLine.bytes, versionBytes_eq]
  rw [parseStatusLine, if_neg long, front, parseVersion_bytes line.version]
  simp only [back]
  rw [if_pos ⟨trivial, first.1, second.1, third.1, reason⟩, first.2, second.2, third.2, value, if_neg (by omega)]

theorem StatusLine.bytes_unique {line line' : StatusLine} (same : line.bytes = line'.bytes) :
    line.code = line'.code ∧ line.major = line'.major ∧ line.minor = line'.minor := by
  let s : Scan Unit := ⟨{ config := defaultConfig, type := .response }, ()⟩
  have read := parseStatusLine_bytes line s
  rw [same, parseStatusLine_bytes line' s] at read
  have parser := congrArg (fun result => result.2.p) read
  exact ⟨(congrArg Parser.status parser.symm :), (congrArg Parser.major parser.symm :), (congrArg Parser.minor parser.symm :)⟩

theorem parseStatusLine_accepts {text : Bytes} (accepted : (parseStatusLine text s).1 = true) :
    ∃ line : StatusLine, line.bytes = text := by
  rw [parseStatusLine] at accepted
  split at accepted
  next => cases accepted
  next long =>
    split at accepted
    next => cases accepted
    next major minor parsed =>
      obtain ⟨version, front⟩ := parseVersion_accepts parsed
      split at accepted
      next sp d1 d2 d3 reason back =>
        split at accepted
        next held =>
          obtain ⟨space, digit1, digit2, digit3, tail⟩ := held
          have := digitVal_lt digit1
          have := digitVal_lt digit2
          have := digitVal_lt digit3
          dsimp only at accepted
          split at accepted
          next => cases accepted
          next large =>
            refine ⟨⟨major, minor, digitVal d1 * 100 + digitVal d2 * 10 + digitVal d3,
              if reason = [] then none else some reason.tail, version, by omega⟩, ?_⟩
            have hundreds : (digitVal d1 * 100 + digitVal d2 * 10 + digitVal d3) / 100 = digitVal d1 := by omega
            have tens : (digitVal d1 * 100 + digitVal d2 * 10 + digitVal d3) / 10 % 10 = digitVal d2 := by omega
            have ones : (digitVal d1 * 100 + digitVal d2 * 10 + digitVal d3) % 10 = digitVal d3 := by omega
            have ends : (if reason = [] then none else some reason.tail).elim [] (SP :: ·) = reason := by
              rcases tail with none | first
              · simp [none]
              · obtain ⟨rest, rfl⟩ := List.head?_eq_some_iff.mp first
                simp
            rw [StatusLine.bytes, hundreds, tens, ones, ends, digitChar_digitVal digit1, digitChar_digitVal digit2,
              digitChar_digitVal digit3, ← front, ← space, List.append_assoc]
            exact (congrArg (text.take 8 ++ ·) back.symm).trans (List.take_append_drop 8 text)
        next => cases accepted
      next => cases accepted

/-- What a response's start line says: a status line, which the parser has read, or nothing it accepts. -/
def StatusRead (text : Bytes) (ok : Bool) (p : Parser) : Prop :=
  if ok then ∃ line : StatusLine, line.bytes = text ∧ p.status = line.code ∧ p.major = line.major ∧ p.minor = line.minor
  else ∀ line : StatusLine, line.bytes ≠ text

theorem parseStatusLine_read (text : Bytes) (s : Scan σ) :
    StatusRead text (parseStatusLine text s).1 (parseStatusLine text s).2.p := by
  rw [StatusRead]
  split
  next accepted =>
    obtain ⟨line, rfl⟩ := parseStatusLine_accepts accepted
    rw [parseStatusLine_bytes]
    exact ⟨line, rfl, rfl, rfl, rfl⟩
  next refused =>
    rintro line rfl
    apply refused
    rw [parseStatusLine_bytes]

theorem parseStatusLine_started (line : Bytes) (s : Scan σ) :
    Started H (parseStatusLine line s).1 s (parseStatusLine line s) := by
  unfold parseStatusLine
  split
  · exact .fail _ _
  · split
    · exact .fail _ _
    · dsimp only
      split
      · split
        · split
          · exact ⟨rfl, rfl, rfl, rfl, fun impossible => (by cases impossible), fun _ _ held => held⟩
          · exact ⟨rfl, rfl, rfl, rfl, fun _ => rfl, fun _ _ held => held⟩
        · exact ⟨rfl, rfl, rfl, rfl, fun impossible => (by cases impossible), fun _ _ held => held⟩
      · exact ⟨rfl, rfl, rfl, rfl, fun impossible => (by cases impossible), fun _ _ held => held⟩

variable [Htstring] (attentive : H.Attentive)
include attentive

theorem parseStartLine_started (line : Bytes) (here : s.p.state = .headLine) :
    ∃ ok, (parseStartLine H line s).1 = ok ∧ StartOnly s.p (parseStartLine H line s).2.p ∧
      (parseStartLine H line s).2.p.state = (if ok then .headLine else .error) ∧
      (ok = true → (parseStartLine H line s).2.p.error = s.p.error) ∧
      (∀ U, H.KeepsStart U → U s.user → U (parseStartLine H line s).2.user) ∧
      (s.p.type = .request → ok = requestLineOk line) ∧
      (s.p.type = .response → StatusRead line ok (parseStartLine H line s).2.p) := by
  unfold parseStartLine
  cases type : s.p.type with
  | request =>
    have started := parseRequestLine_started attentive line s
    have state := started.state
    rw [show ({ s with p := { s.p with method := methodFrom (nextToken line).1 } } : Scan σ).p.state = .headLine
      from here] at state
    exact ⟨_, started.accepted, started.only, state, started.error, started.kept, fun _ => rfl,
      fun impossible => (by cases impossible)⟩
  | response =>
    have started := parseStatusLine_started (H := H) line s
    have state := started.state
    rw [here] at state
    exact ⟨_, rfl, started.only, state, started.error, started.kept, fun impossible => (by cases impossible),
      fun _ => parseStatusLine_read line s⟩

omit [Htstring] in
theorem enterHeaders_started (s : Scan σ) : Started H true { s with p := { s.p with state := .headers } }
    (true, enterHeaders H s) ∧ ∀ text ok, StatusRead text ok s.p → StatusRead text ok (enterHeaders H s).p := by
  have called := attentive.started .onHdrsBegin [] { s with p := { s.p with state := .headers } } rfl
  have same := (attentive.hook .onHdrsBegin [] { s with p := { s.p with state := .headers } }).2
  have status : (enterHeaders H s).p.status = s.p.status := (congrArg Parser.status same :)
  have major : (enterHeaders H s).p.major = s.p.major := (congrArg Parser.major same :)
  have minor : (enterHeaders H s).p.minor = s.p.minor := (congrArg Parser.minor same :)
  refine ⟨⟨rfl, called.only, called.method, called.state, called.error, called.kept⟩, fun text ok read => ?_⟩
  rwa [StatusRead, status, major, minor]

omit attentive in
theorem begin_turn (H : Hooks σ) (ending : LineEnd) (rest : Bytes) (some : line ≠ [])
    (unbroken : Unbroken line) (here : s.p.state = .start) : Decoder.Next (resumedTurn H)
      (s, line ++ ending.bytes ++ rest) ((beginMessage H s).resume, line ++ ending.bytes ++ rest) := by
  obtain ⟨byte, tail, rfl⟩ := List.exists_cons_of_ne_nil some
  have text : ¬(byte = CR ∨ byte = LF) := by
    have := unbroken byte (by simp)
    tauto
  refine ⟨_, 0, ?_, rfl⟩
  simp only [resumedTurn, turn, here, turnStart, List.cons_append, text, if_false, Option.map_some]

theorem start_path (ending : LineEnd) (rest : Bytes) (some : line ≠ [])
    (unbroken : Unbroken line) (here : s.p.state = .start) (running : s.p.flags.paused = false)
    (fits : s.p.config.maxLineLength = 0 ∨ line.length ≤ s.p.config.maxLineLength) :
    ∃ p user ok, (∀ U, H.KeepsStart U → U s.user → U user) ∧
      Decoder.Steps (resumedTurn H) (s, line ++ ending.bytes ++ rest) (⟨p, user⟩, rest) ∧
      StartOnly s.p.begin p ∧ p.flags.paused = false ∧ p.state = (if ok then .headers else .error) ∧
      (ok = true → p.error = .none) ∧
      (s.p.type = .request → ok = requestLineOk line) ∧ (s.p.type = .response → StatusRead line ok p) := by
  have begun := attentive.started .onMsgBegin [] { s with p := s.p.begin } rfl
  have same := (attentive.hook .onMsgBegin [] { s with p := s.p.begin }).2
  have begins := begin_turn H ending rest some unbroken here
  have parser : (beginMessage H s).resume.p = s.p.begin := same.trans (Parser.resume_of_running running)
  have user := begun.kept
  change ∀ U, H.KeepsStart U → U s.user → U (beginMessage H s).resume.user at user
  generalize (beginMessage H s).resume = t at *
  have atLine : t.p.state = .headLine := by rw [parser]; rfl
  have fits' : t.p.config.maxLineLength = 0 ∨ line.length ≤ t.p.config.maxLineLength := by
    rw [parser]
    exact fits
  obtain ⟨ok, accepted, only, state, error, kept, request, response⟩ :=
    parseStartLine_started attentive line atLine
  have next := line_turn H ending rest (by simp [atLine, ParserState.inHead]) unbroken fits'
  have parsed : parseHeadLine H line t = if ok then enterHeaders H (parseStartLine H line t).2
      else (parseStartLine H line t).2 := by
    rw [parseHeadLine, if_pos atLine]
    dsimp only
    rw [accepted]
  obtain ⟨entered, read⟩ := enterHeaders_started attentive (parseStartLine H line t).2
  refine ⟨(parseHeadLine H line t).resume.p, (parseHeadLine H line t).user, ok, ?_,
      .head begins (.single next), ?_, rfl, ?_, ?_, fun type => request (by rw [parser]; exact type), ?_⟩
  · intro U keeps held
    have held' := kept U keeps (user U keeps held)
    rw [parsed]
    split
    · exact entered.kept U keeps held'
    · exact held'
  · rw [← parser]
    rw [parsed]
    split
    · exact only.trans entered.only
    · exact only
  · rw [parsed]
    split
    · exact entered.state
    · next failed =>
      rw [if_neg failed] at state
      exact state
  · intro held
    rw [parsed, if_pos held]
    exact (entered.error rfl).trans ((error held).trans (by rw [parser]; rfl))
  · intro type
    have said := response (by rw [parser]; exact type)
    rw [parsed]
    split
    · exact read _ _ said
    · exact said

end

end Evhtp
