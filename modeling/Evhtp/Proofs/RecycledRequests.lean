import Evhtp.RequestCache

/-! Recycled requests. A request from a cache was cleared when it was freed; it reads as one from `calloc` but for
the protocol, which is HTTP/1.1 before any was seen, and the argument of the callback, which is the old one. -/

namespace Evhtp

/-- Nothing that can be read tells the two requests apart. -/
def Request.Indistinguishable (one other : Request) : Prop := ∀ field, one.read field = other.read field

def Recycled (history : List RequestEvent) (caches : RequestCaches) : Prop :=
  ∀ htp, ∀ request ∈ caches htp, ∃ old, .free old ∈ history ∧ request = requestClear old

theorem Recycled.free {history : List RequestEvent} {caches : RequestCaches} (recycled : Recycled history caches)
    (old : Request) : Recycled (history ++ [.free old]) (requestRecycle old caches) := by
  intro htp request member
  have before (member : request ∈ caches htp) : ∃ old', .free old' ∈ history ++ [.free old] ∧ request = requestClear old' := by
    obtain ⟨old', freed, cleared⟩ := recycled htp request member
    exact ⟨old', List.mem_append_left _ freed, cleared⟩
  unfold requestRecycle at member
  split at member
  · rcases List.mem_cons.mp member with cleared | earlier
    · exact ⟨old, by simp, cleared⟩
    · exact before earlier
  · exact before member

theorem getRequestFromCache_eq_some {htp : Nat} {caches rest : RequestCaches} {request : Request}
    (taken : getRequestFromCache htp caches = some (request, rest)) :
    ∃ cached tail, caches htp = cached :: tail ∧ request = { cached with htp, status := resOk } ∧
      ∀ other, rest other = if other = htp then tail else caches other := by
  unfold getRequestFromCache at taken
  split at taken
  · cases taken
  next cached tail first =>
    obtain ⟨rfl, rfl⟩ := Prod.mk.inj (Option.some.inj taken)
    exact ⟨cached, tail, first, rfl, fun _ => rfl⟩

theorem Recycled.new {history : List RequestEvent} {caches : RequestCaches} (recycled : Recycled history caches)
    (htp : Nat) : Recycled (history ++ [.new htp]) (requestTake htp caches).2 := by
  have kept {other : Nat} {request : Request} (member : request ∈ caches other) :
      ∃ old, .free old ∈ history ++ [.new htp] ∧ request = requestClear old := by
    obtain ⟨old, freed, cleared⟩ := recycled other request member
    exact ⟨old, List.mem_append_left _ freed, cleared⟩
  intro other request member
  unfold requestTake at member
  cases taken : getRequestFromCache htp caches with
  | none =>
    rw [taken] at member
    exact kept member
  | some pair =>
    obtain ⟨cached, tail, first, -, rest⟩ := getRequestFromCache_eq_some taken
    rw [taken, Option.getD_some, rest other] at member
    split at member
    next =>
      have earlier : request ∈ caches htp := by
        rw [first]
        exact List.mem_cons_of_mem _ member
      exact kept earlier
    next => exact kept member

/-- In every run of the connections the caches hold cleared requests. -/
theorem recycled_cachesAfter (history : List RequestEvent) : Recycled history (cachesAfter history) := by
  induction history using List.reverseRecOn with
  | nil => exact fun htp request member => nomatch member
  | append_singleton history event ih =>
    unfold cachesAfter
    rw [List.foldl_concat]
    cases event with
    | free old => exact ih.free old
    | new htp => exact ih.new htp

theorem read_recycled (old : Request) (htp : Nat) (field : ReqField) :
    Request.read { requestClear old with htp, status := resOk } field = (requestAlloc htp).read field ↔
      field ≠ .proto ∧ (field = .cbarg → old.cbarg = 0) := by
  have uri : Request.requireUri { requestClear old with htp, status := resOk } = {} := by
    change (old.uri.map uriClear).getD {} = {}
    cases old.uri <;> rfl
  have hooks : (old.hooks.map fun _ => 0).getD 0 = 0 := by
    cases old.hooks <;> rfl
  cases field with
  | proto => exact ⟨nofun, fun unlike => absurd rfl unlike.1⟩
  | cbarg => exact ⟨fun same => ⟨nofun, fun _ => same⟩, fun unlike => unlike.2 rfl⟩
  | hooks => exact ⟨fun _ => ⟨nofun, nofun⟩, fun _ => hooks⟩
  | username | password | hostname | port | scheme | path | query | queryRaw | fragment | hasQueryBody =>
    refine ⟨fun _ => ⟨nofun, nofun⟩, fun _ => ?_⟩
    simp only [Request.read, uri]
    rfl
  | headersIn | headersOut | bufferIn | bufferOut | flags | status | method | streamId | htp | cb =>
    exact ⟨fun _ => ⟨nofun, nofun⟩, fun _ => rfl⟩

/-- A request that a cache hands out never reads as a new one. All of its fields do but the protocol, and the argument
of the callback unless it was `NULL`. -/
theorem recycled_request_distinguishable (history : List RequestEvent) {htp : Nat} {request : Request}
    {rest : RequestCaches} (taken : getRequestFromCache htp (cachesAfter history) = some (request, rest)) :
    ¬request.Indistinguishable (requestAlloc htp) ∧
      ∃ old, .free old ∈ history ∧ ∀ field, request.read field = (requestAlloc htp).read field ↔
        field ≠ .proto ∧ (field = .cbarg → old.cbarg = 0) := by
  obtain ⟨cached, tail, first, rfl, -⟩ := getRequestFromCache_eq_some taken
  have member : cached ∈ cachesAfter history htp := by
    rw [first]
    exact List.mem_cons_self
  obtain ⟨old, freed, rfl⟩ := recycled_cachesAfter history htp cached member
  refine ⟨fun alike => ?_, old, freed, read_recycled old htp⟩
  exact ((read_recycled old htp .proto).mp (alike .proto)).1 rfl

def answeredRequest : Request := { method := .GET, proto := .proto10, cb := some 1, cbarg := 7 }

theorem recycled_request_after_answer :
    getRequestFromCache root (cachesAfter [.free answeredRequest]) =
        some (requestClear answeredRequest, cachesAfter [.free answeredRequest, .new root]) ∧
      ¬(requestClear answeredRequest).Indistinguishable (requestAlloc root) := by
  have taken : getRequestFromCache root (cachesAfter [.free answeredRequest]) =
      some (requestClear answeredRequest, cachesAfter [.free answeredRequest, .new root]) := rfl
  exact ⟨taken, (recycled_request_distinguishable _ taken).1⟩

theorem recycled_request_keeps_version_and_argument :
    ¬(requestTake root (cachesAfter [.free answeredRequest])).1.Indistinguishable (requestAlloc root) ∧
      (requestTake root (cachesAfter [.free answeredRequest])).1.read .proto ≠ (requestAlloc root).read .proto ∧
      (requestTake root (cachesAfter [.free answeredRequest])).1.read .cbarg ≠ (requestAlloc root).read .cbarg := by
  have version : (requestTake root (cachesAfter [.free answeredRequest])).1.read .proto ≠ (requestAlloc root).read .proto :=
    fun same => nomatch (same : EvhtpProto.proto11 = .invalid)
  exact ⟨fun alike => version (alike .proto), version, fun same => nomatch (same : 7 = 0)⟩

end Evhtp
