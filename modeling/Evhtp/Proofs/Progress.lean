import Evhtp.Proofs.Representation

/-! Termination and progress of the parser. The loops of the source are given as relations, without a bound on their
turns; whatever the hooks do, both come to an end. A run that fires no hook, reads nothing and records no error leaves
the parser as it was. -/

namespace Evhtp

section
variable {σ : Type} {H : Hooks σ}

theorem longer_record {log more : List Fired} {fired : Fired} (front : log ++ [fired] <+: more) : more ≠ log := by
  rintro rfl
  have := front.length_le
  rw [List.length_append, List.length_singleton] at this
  omega

variable [Htstring]

theorem ended_grows {last after : Scan (σ × List Fired)} {rest : Bytes} {past : List Fired}
    (ended : Ended H.logged last rest after) (front : past <+: last.user.2) : past <+: after.user.2 := by
  cases ended with
  | completed done paused => exact (logged_grows H past).completes done paused front
  | failed _ | paused _ | waiting _ => exact front

theorem begin_of_unused {s : Scan σ} {data : Bytes} {state : Scan σ} {used : Nat} (start : s.p.state = .start)
    (unused : used = 0) (taken : turn H s data = some (state, used)) : state = beginMessage H s := by
  rcases turn_start start taken with ⟨byte, skipped⟩ | begins
  · cases skipped
    cases unused
  · exact congrArg Prod.fst begins

/-- A run that fires no hook, reads nothing and records no error does nothing. -/
theorem run_still {s : Scan (σ × List Fired)} (consistent : s.p.Consistent) (data : Bytes)
    (silent : (runLoop H.logged (runFuel data) data s).1.user.2 = s.user.2)
    (unread : (runLoop H.logged (runFuel data) data s).2 = 0)
    (clean : (runLoop H.logged (runFuel data) data s).1.p.error = s.p.error) :
    runLoop H.logged (runFuel data) data s = (s, 0) := by
  obtain ⟨_, last, path, ended⟩ := run_spec H.logged consistent.toSane data
  generalize runLoop H.logged (runFuel data) data s = result at *
  obtain ⟨after, used⟩ := result
  dsimp only at *
  subst unread
  rw [List.drop_zero] at path ended
  rcases Relation.ReflTransGen.cases_head path with same | ⟨_, ⟨paused, undone, state, used, taken, rfl⟩, rest⟩
  · obtain rfl : s = last := congrArg Prod.fst same
    cases ended with
    | completed =>
      obtain ⟨reply, user, called⟩ := hook_logged (H := H) .onMsgComplete [] ⟨s.p.finish, s.user⟩
      unfold finishMessage at silent
      rw [called] at silent
      exact absurd silent (longer_record (List.prefix_refl _))
    | failed _ | paused _ | waiting _ => rfl
  · exfalso
    have bound := turn_used H.logged consistent.toSane taken
    have shorter := (path_used H.logged (turn_sane H.logged consistent.toSane paused taken) rest).1
    have unused : used = 0 := by
      simp only [List.length_drop] at shorter
      have := bound.1
      dsimp only at this
      omega
    rcases bound.2 unused with done | ⟨start, line⟩ | failed
    · exact undone done
    -- the message begins, which is on the record from then on
    · have begun : state = beginMessage H.logged s := begin_of_unused start unused taken
      obtain ⟨reply, user, called⟩ := hook_logged (H := H) .onMsgBegin [] ⟨s.p.begin, s.user⟩
      have front : s.user.2 ++ [⟨⟨.onMsgBegin, []⟩, s.p.begin, reply.rc⟩] <+: state.user.2 := by
        rw [begun, beginMessage, called]
      exact longer_record (ended_grows ended ((logged_grows H _).path front rest)) silent
    · change state.p.state = .error at failed
      have alive : s.p.state ≠ .error := by
        intro stuck
        simp [turn, stuck] at taken
      have recorded : state.p.error ≠ .none := (turn_consistent consistent paused taken).error.mpr failed
      obtain rfl : state = last := by
        rcases Relation.ReflTransGen.cases_head rest with same | ⟨_, ⟨_, _, _, _, more, _⟩, _⟩
        · exact congrArg Prod.fst same
        · simp [turn, failed] at more
      have same : after = state := by
        cases ended with
        | completed done => cases done.symm.trans failed
        | failed _ | paused _ | waiting _ => rfl
      rw [same] at clean
      exact alive (consistent.error.mp (clean ▸ recorded))

end

/-- Both loops of a run end, whatever the hooks do; and a run that fires no hook, reads nothing and records no error
leaves the parser as it was. -/
theorem run_terminates_progress [Htstring] {p : Htparser} (reached : p.Reachable) {σ : Type} (H : Hooks σ) (user : σ)
    (data : Bytes) :
    (∃ result, RunLoop H data ⟨p.toParser, user⟩ result ∧ htparserRun H p user data =
      ({ result.1.p with bytesRead := result.2, totalBytesRead := p.totalBytesRead + UInt64.ofNat result.2 },
        result.1.user, result.2)) ∧
    ((htparserRun H.logged p (user, []) data).2.1.2 = [] → (htparserRun H.logged p (user, []) data).2.2 = 0 →
      (htparserRun H.logged p (user, []) data).1.error = p.error →
      htparserRun H p user data = ({ p with bytesRead := 0 }, user, 0)) := by
  have consistent := reached.consistent
  refine ⟨⟨_, runLoop_ends H (s := ⟨p.toParser, user⟩) consistent.toSane ?_, rfl⟩, fun silent unread clean => ?_⟩
  · cases p.state <;> simp [ParserState.rank, runFuel]
  · have still := run_still (s := ⟨p.toParser, (user, [])⟩) consistent data silent unread clean
    have same := (logged_rules H).runLoop (runFuel data) data (p := p.toParser) (t := (user, [])) rfl
    rw [still] at same
    obtain ⟨used, parser, held⟩ := same
    unfold htparserRun
    dsimp only at used parser held ⊢
    rw [used, parser, ← held]
    simp

section
attribute [local instance] Plain.htstring

/-- The parser waits for the end of a request line, again and again. -/
theorem run_terminates_progress_partial :
    let p := htparserInit (htparserNew defaultConfig) .request
    let waiting := (htparserRun recorder.hooks p [] (ascii "GET / HT")).1
    waiting.state = .headLine ∧ htparserRun recorder.hooks waiting [] (ascii "GET / HT") = (waiting, [], 0) := by
  intro p waiting
  have reached : waiting.Reachable := .run _ _ _ (.init _ _)
  have quiet : waiting.state = .headLine ∧ waiting.bytesRead = 0 ∧
      (htparserRun recorder.hooks.logged waiting ([], []) (ascii "GET / HT")).2.1.2 = [] ∧
      (htparserRun recorder.hooks.logged waiting ([], []) (ascii "GET / HT")).2.2 = 0 ∧
      (htparserRun recorder.hooks.logged waiting ([], []) (ascii "GET / HT")).1.error = waiting.error := by
    decide +kernel
  obtain ⟨state, read, silent, unread, clean⟩ := quiet
  refine ⟨state, ((run_terminates_progress reached recorder.hooks [] _).2 silent unread clean).trans ?_⟩
  rw [← read]

end

end Evhtp
