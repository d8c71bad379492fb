import Evhtp.Proofs.StartLine

/-! Whole heads. However the hooks pause the parser and however often it is called, a head within the
limits is either reported complete, once, with the framing its fields add up to, or it fails. -/

namespace Evhtp

/-- The hooks `H`, with a record of the parser as each call of the hook for a complete head finds it. -/
def Hooks.watched {σ : Type} (H : Hooks σ) : Hooks (σ × List Parser) where
  present name := H.present name || name == .onHdrsComplete
  call event p s :=
    let seen := if event.name = .onHdrsComplete then s.2 ++ [p] else s.2
    if H.present event.name then ((H.call event p s.1).1, ((H.call event p s.1).2, seen)) else ({}, (s.1, seen))

section
variable {σ : Type} {H : Hooks σ}

theorem Hooks.Attentive.watched (attentive : H.Attentive) : H.watched.Attentive := by
  intro event p s
  unfold Hooks.watched
  dsimp only
  split
  · exact attentive event p s.1
  · exact ⟨false, rfl⟩

theorem Hooks.watched_keeps : H.watched.Keeps fun s => s.2 = [] := by
  intro event p s other held
  unfold Hooks.watched
  dsimp only
  split <;> simpa [other] using held

theorem Hooks.watched_complete {s : Scan (σ × List Parser)} (held : s.user.2 = []) :
    (hook H.watched .onHdrsComplete [] s).2.user.2 = [s.p] := by
  unfold hook Hooks.watched
  dsimp only
  split
  · split <;> simp [held]
  · simp at *

theorem Hooks.watched_other {s : Scan (σ × List Parser)} {name : HookName} (data : Bytes) (other : name ≠ .onHdrsComplete) :
    (hook H.watched name data s).2.user.2 = s.user.2 := by
  by_cases present : H.present name = true <;> simp [hook, Hooks.watched, other, present]

end

def Parser.headFraming [Htstring] (p : Parser) (fields : List Field) : Option Parser :=
  let taken := p.takeFields fields
  let framed := framing taken.2
  if taken.1 ∧ framed.1 then some framed.2.headDone else none

/-- A framed head waits for its body, if it has one; what its start line said is still known. -/
theorem Parser.headFraming_done [Htstring] {p framed : Parser} {fields : List Field}
    (found : p.headFraming fields = some framed) :
    framed.method = p.method ∧ framed.state = if framed.body = .none then .complete else .body := by
  rw [Parser.headFraming, Option.ite_none_right_eq_some] at found
  obtain ⟨-, done⟩ := found
  rw [← Option.some.inj done]
  exact ⟨(framing_method _).trans (takeFields_method p fields), rfl⟩

section
variable [Htstring] {σ : Type} {H : Hooks σ} (attentive : H.Attentive)
include attentive

/-- A framed head is reported, and the parser then waits for its body or for the next message. -/
theorem framed_path {framed : Parser} (user : σ × List Parser) (done : framed.state = .body ∨ framed.state = .complete) :
    ∃ p user', Decoder.Steps (resumedTurn H.watched) (⟨framed, user⟩, []) (⟨p, user'⟩, []) ∧
      Decoder.Normal (resumedTurn H.watched) (⟨p, user'⟩, []) ∧ user'.2 = user.2 ∧ p.error = framed.error := by
  rcases done with body | complete
  · refine ⟨framed, user, .refl, ?_, rfl, rfl⟩
    simp only [Decoder.Normal, resumedTurn, turn, body, turnBody, if_true, Option.map_none]
  · have called := attentive.watched.hook .onMsgComplete [] ⟨framed.finish, user⟩
    have start : (finishMessage H.watched ⟨framed, user⟩).p.state = .start := (congrArg Parser.state called.2 :)
    refine ⟨_, (finishMessage H.watched ⟨framed, user⟩).user,
      .single ⟨(finishMessage H.watched ⟨framed, user⟩).resume, 0, ?_, rfl⟩, ?_, ?_, ?_⟩
    · simp only [resumedTurn, turn, complete, Option.map_some]
    · exact idle_normal H.watched start
    · exact Hooks.watched_other [] (by simp)
    · exact (congrArg Parser.error called.2 :)

/-- A head within the limits is reported complete, once, with the framing its fields add up to, or fails. -/
theorem head_outcome {head : Head} {p : Htparser} (user : σ) (here : p.state = .start)
    (running : p.flags.paused = false) (within : head.Within p.config) {count : Nat}
    (enough : 3 * head.bytes.length + 2 < count) :
    ∃ q ok, StartOnly p.toParser.begin q ∧ q.flags.paused = false ∧
      (p.type = .request → ok = requestLineOk head.startLine) ∧
      (p.type = .response → StatusRead head.startLine ok q) ∧
      (∀ framed, ok = true → q.headFraming head.fields = some framed →
        (Fed.calls H.watched count ⟨p, (user, []), head.bytes⟩).user.2 = [framed] ∧
          (Fed.calls H.watched count ⟨p, (user, []), head.bytes⟩).p.error = .none) ∧
      ((ok = true → q.headFraming head.fields = none) →
        (Fed.calls H.watched count ⟨p, (user, []), head.bytes⟩).user.2 = [] ∧
          (Fed.calls H.watched count ⟨p, (user, []), head.bytes⟩).p.state = .error) := by
  have sane : p.Sane := .of_state (by simp [here])
  have enough : potential (σ := σ × List Parser) (⟨p.toParser, (user, [])⟩, head.bytes) < count := by
    simpa [potential, here] using enough
  have ends : ∀ {last rest}, Decoder.Steps (resumedTurn H.watched) (⟨p.toParser, (user, [])⟩, head.bytes) (last, rest) →
      Decoder.Normal (resumedTurn H.watched) (last, rest) →
        (Fed.calls H.watched count ⟨p, (user, []), head.bytes⟩).scan = last := fun path stuck =>
    congrArg Prod.fst (calls_outcome H.watched ⟨p, (user, []), head.bytes⟩ sane running enough path stuck)
  generalize Fed.calls H.watched count ⟨p, (user, []), head.bytes⟩ = final at *
  obtain ⟨q, user₁, ok, kept₁, path₁, only, running₁, state₁, error₁, request, response⟩ :=
    start_path attentive.watched head.ending (s := ⟨p.toParser, (user, [])⟩)
      (fieldBytes head.fields ++ head.empty.bytes) head.some head.unbroken here running within.startLine
  have none₁ : user₁.2 = [] := kept₁ _ Hooks.watched_keeps.start rfl
  refine ⟨q, ok, only, running₁, request, response, ?_⟩
  cases ok with
  | false =>
    rw [if_neg (by simp)] at state₁
    have same := ends path₁ (failed_normal _ state₁)
    refine ⟨fun _ impossible => (by cases impossible), fun _ => ⟨?_, ?_⟩⟩
    · exact (congrArg (fun s => s.user.2) same).trans none₁
    · exact (congrArg (fun s => s.p.state) same).trans state₁
  | true =>
    rw [if_pos rfl] at state₁
    have flags : q.flags.skipBody = false := (congrArg (fun p => p.flags.skipBody) only :)
    have config : q.config = p.config := (congrArg Parser.config only :)
    have count : q.headerCount = 0 := (congrArg Parser.headerCount only :)
    obtain ⟨user₂, rest, kept₂, path₂, state₂, running₂, skip₂, left⟩ :=
      fields_path attentive.watched head.fields (s := ⟨q, user₁⟩) head.empty.bytes state₁ running₁
        (config ▸ within.lines) (by rw [config, count, Nat.zero_add]; exact within.count)
    have none₂ : user₂.2 = [] := kept₂ _ Hooks.watched_keeps none₁
    have taken := path₁.trans path₂
    dsimp only at state₂ running₂ skip₂ left taken
    by_cases fields : (q.takeFields head.fields).1 = true
    · obtain ⟨rfl, error₂⟩ := left fields
      rw [if_pos fields] at state₂
      have next := end_turn attentive.watched head.empty (s := ⟨(q.takeFields head.fields).2, user₂⟩) []
        state₂ running₂ (skip₂.trans flags)
      rw [List.append_nil] at next
      have checked := framing_checked (q.takeFields head.fields).2
      by_cases framed : (framing (q.takeFields head.fields).2).1 = true
      · rw [if_pos framed] at next
        have outcome : q.headFraming head.fields = some (framing (q.takeFields head.fields).2).2.headDone := by
          simp [Parser.headFraming, fields, framed]
        have place : (framing (q.takeFields head.fields).2).2.headDone.state = .body ∨
            (framing (q.takeFields head.fields).2).2.headDone.state = .complete := by
          simp only [Parser.headDone]
          split <;> simp
        obtain ⟨r, user₃, path₃, stuck, seen, error₃⟩ := framed_path attentive _ place
        have same := ends ((taken.tail next).trans path₃) stuck
        refine ⟨fun framed' _ found => ?_, fun none => ?_⟩
        · rw [outcome, Option.some.injEq] at found
          subst found
          refine ⟨(congrArg (fun s => s.user.2) same).trans (seen.trans (Hooks.watched_complete none₂)), ?_⟩
          refine (congrArg (fun s => s.p.error) same).trans (error₃.trans ?_)
          refine (checked.error_eq framed (by simp [state₂])).trans (error₂.trans (error₁ rfl))
        · rw [outcome] at none
          cases none rfl
      · rw [if_neg framed] at next
        have failed : (framing (q.takeFields head.fields).2).2.state = .error := by
          rw [checked.state, if_neg framed]
        have same := ends (taken.tail next) (failed_normal _ failed)
        refine ⟨fun framed' _ found => ?_, fun _ => ⟨?_, ?_⟩⟩
        · simp [Parser.headFraming, framed] at found
        · exact (congrArg (fun s => s.user.2) same).trans none₂
        · exact (congrArg (fun s => s.p.state) same).trans failed
    · rw [if_neg fields] at state₂
      have same := ends taken (failed_normal _ state₂)
      refine ⟨fun framed' _ found => ?_, fun _ => ⟨?_, ?_⟩⟩
      · simp [Parser.headFraming, fields] at found
      · exact (congrArg (fun s => s.user.2) same).trans none₂
      · exact (congrArg (fun s => s.p.state) same).trans state₂

end

end Evhtp
