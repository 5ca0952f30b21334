import Stoppage.Lib.Transition
import Stoppage.Sdk.Sse

/-! # `connectSse`: a stream that reconnects

The loop of `connectSse` waits for one thing at a time, the response, its text when it is refused, a
chunk of the body, or a timer, and anyone may call `stop()` in between. What it does to the world is a
list of effects, which the callbacks may depend on. Left out are the headers of the request.
-/

namespace Stoppage.Sse
open Framing Json Escrow Sdk TransitionSystem
set_option autoImplicit false

/-! ## The loop -/

/-- What the loop does, in order. -/
inductive Effect (ν ε : Type)
  | fetch
  | getReader
  | handler (message : SseMessage ν)
  | onError (e : ε)
  | sleep (ms : ℕ)

/-- What a callback does to the loop: it may throw, and it may call `stop()`. -/
structure Outcome (ε : Type) where
  thrown : Option ε
  stops : Bool

/-- The callbacks, which know what has happened so far. -/
structure Callbacks (ν ε : Type) where
  handler : List (Effect ν ε) → SseMessage ν → Outcome ε
  onError : Option (List (Effect ν ε) → ε → Outcome ε)

/-- What the loop waits for. -/
inductive Phase
  | fetching
  | refused (status : ℕ)
  | reading (decoder : TextDecoder) (buffer : JsString)
  | sleeping
  | over

structure Connection (ν ε : Type) where
  phase : Phase
  stopped : Bool
  backoffMs : ℕ
  effects : List (Effect ν ε)

def maxBackoff : ℕ := 30000

namespace Connection
section Loop
variable {ν ε : Type} (toNumber : JsString → ν) (newError : JsString → ε) (k : Callbacks ν ε)
variable (c : Connection ν ε)

def emit (e : Effect ν ε) : Connection ν ε := { c with effects := c.effects ++ [e] }

/-- A callback has been called. -/
def obey (o : Outcome ε) : Connection ν ε := { c with stopped := c.stopped || o.stops }

def finish : Connection ν ε := { c with phase := .over }

/-- The head of the outer `while (!stopped)`. -/
def loop : Connection ν ε :=
  if c.stopped then c.finish else { c.emit .fetch with phase := .fetching }

/-- `await sleep(backoffMs)` -/
def pause : Connection ν ε := { c.emit (.sleep c.backoffMs) with phase := .sleeping }

/-- The `catch`. What `onError` throws ends the loop. -/
def caught (e : ε) : Connection ν ε :=
  if c.stopped then c.finish
  else
    match k.onError with
    | none => c.pause
    | some onError =>
      let o := onError c.effects e
      if o.thrown.isSome then ((c.emit (.onError e)).obey o).finish
      else ((c.emit (.onError e)).obey o).pause

/-- `handler(message)` -/
def handle (message : SseMessage ν) : Connection ν ε × Option ε :=
  ((c.emit (.handler message)).obey (k.handler c.effects message),
    (k.handler c.effects message).thrown)

/-- At most `n` turns of the innermost loop. -/
def cutBlocks : ℕ → JsString → Connection ν ε → Connection ν ε × Except ε JsString
  | 0, buffer, c => (c, .ok buffer)
  | n + 1, buffer, c =>
    match cutBlank cr lf buffer with
    | none => (c, .ok buffer)
    | some (block, rest) =>
      match parseSseBlock toNumber block with
      | none => cutBlocks n rest c
      | some message =>
        match (c.handle k message).2 with
        | none => cutBlocks n rest (c.handle k message).1
        | some e => ((c.handle k message).1, .error e)

/-- The head of the inner `while (!stopped)`; a loop that was stopped ends behind it. -/
def read (decoder : TextDecoder) (buffer : JsString) : Connection ν ε :=
  if c.stopped then c.finish else { c with phase := .reading decoder buffer }

/-- `resp.ok` -/
def isOk (status : ℕ) : Bool := 200 ≤ status && status ≤ 299

def response (status : ℕ) (hasBody : Bool) : Connection ν ε :=
  if isOk status then
    if hasBody then { c.emit .getReader with backoffMs := 1000 }.read TextDecoder.new []
    else c.caught k (newError (Utf16.ofString "Stream response has no body"))
  else { c with phase := .refused status }

/-- `SSE stream failed: ${resp.status} ${await resp.text()}` -/
def refusal (status : ℕ) (text : JsString) : JsString :=
  Utf16.ofString ("SSE stream failed: " ++ toString status ++ " ") ++ text

def chunk (decoder : TextDecoder) (buffer : JsString) (value : Bytes) : Connection ν ε :=
  let (text, decoder) := decoder.stream value
  let buffer := buffer ++ text
  match cutBlocks toNumber k buffer.length buffer c with
  | (c, .ok buffer) => c.read decoder buffer
  | (c, .error e) => c.caught k e

def ended : Connection ν ε := if c.stopped then c.finish else c.pause

def woken : Connection ν ε := { c with backoffMs := min (c.backoffMs * 2) maxBackoff }.loop

def stop : Connection ν ε := { c with stopped := true }

/-- `connectSse` up to its first `await`. -/
def start : Connection ν ε := loop ⟨.sleeping, false, 1000, []⟩

end Loop
end Connection

/-- What the loop waits for comes, or `stop()` is called. -/
inductive Event (ε : Type)
  | response (status : ℕ) (hasBody : Bool)
  | text (body : JsString)
  | chunk (value : Bytes)
  | ended
  | rejected (e : ε)
  | woken
  | stop

section Step
variable {ν ε : Type} (toNumber : JsString → ν) (newError : JsString → ε) (k : Callbacks ν ε)

def Event.apply (c : Connection ν ε) : Event ε → Option (Connection ν ε)
  | .response status hasBody =>
    match c.phase with
    | .fetching => some (c.response newError k status hasBody)
    | _ => none
  | .text body =>
    match c.phase with
    | .refused status => some (c.caught k (newError (Connection.refusal status body)))
    | _ => none
  | .chunk value =>
    match c.phase with
    | .reading decoder buffer => some (c.chunk toNumber k decoder buffer value)
    | _ => none
  | .ended =>
    match c.phase with
    | .reading _ _ => some c.ended
    | _ => none
  | .rejected e =>
    match c.phase with
    | .fetching => some (c.caught k e)
    | .refused _ => some (c.caught k e)
    | .reading _ _ => some (c.caught k e)
    | _ => none
  | .woken =>
    match c.phase with
    | .sleeping => some c.woken
    | _ => none
  | .stop => some c.stop

def Step (c : Connection ν ε) (e : Event ε) (c' : Connection ν ε) : Prop :=
  e.apply toNumber newError k c = some c'

/-! ## What was sent and what was heard -/

/-- The bodies of the responses so far, the last one first, by their chunks. -/
def receive (bodies : List (List Bytes)) : Event ε → List (List Bytes)
  | .response status hasBody => if Connection.isOk status && hasBody then [] :: bodies else bodies
  | .chunk value => bodies.modifyHead (· ++ [value])
  | _ => bodies

def bodies (es : List (Event ε)) : List (List Bytes) := es.foldl receive []

/-- What the handler was called with, one list for each body, the last one first. -/
def hear (heard : List (List (SseMessage ν))) : Effect ν ε → List (List (SseMessage ν))
  | .getReader => [] :: heard
  | .handler message => heard.modifyHead (· ++ [message])
  | _ => heard

def heard (effects : List (Effect ν ε)) : List (List (SseMessage ν)) := effects.foldl hear []

/-- The messages of the blocks of a body that are complete. -/
def messages (chunks : List Bytes) : List (SseMessage ν) :=
  ((blankLine cr lf).drain (TextDecoder.new.stream chunks.flatten).1).1.filterMap
    (parseSseBlock toNumber)

/-- The handler has not thrown. -/
def Calm (effects : List (Effect ν ε)) : Prop :=
  ∀ pre message, pre ++ [.handler message] <+: effects → (k.handler pre message).thrown = none

end Step

/-! ## Effects -/

section Effects
variable {ν ε : Type}

/-- Effects that the handler has no part in. -/
def Effect.silent : Effect ν ε → Bool
  | .fetch => true
  | .getReader => false
  | .handler _ => false
  | .onError _ => true
  | .sleep _ => true

theorem prefix_append_cases {α : Type} {pre l out : List α} {x : α}
    (h : pre ++ [x] <+: l ++ out) : pre ++ [x] <+: l ∨ x ∈ out := by
  rcases List.prefix_or_prefix_of_prefix h (List.prefix_append l out) with hle | ⟨t, ht⟩
  · exact .inl hle
  · rcases List.eq_nil_or_concat t with rfl | ⟨t', y, rfl⟩
    · rw [List.append_nil] at ht
      exact .inl (ht ▸ List.prefix_rfl)
    · rw [List.concat_eq_append, ← List.append_assoc] at ht
      obtain ⟨-, hxy⟩ := List.append_inj' ht rfl
      obtain rfl := List.singleton_inj.mp hxy
      rw [← ht, List.append_assoc, List.prefix_append_right_inj] at h
      exact .inr (h.subset (List.mem_append_right _ List.mem_cons_self))

theorem heard_append (l out : List (Effect ν ε)) : heard (l ++ out) = out.foldl hear (heard l) :=
  List.foldl_append

theorem heard_silent (l : List (Effect ν ε)) {out : List (Effect ν ε)}
    (hout : ∀ x ∈ out, x.silent = true) : heard (l ++ out) = heard l := by
  rw [heard_append]
  generalize heard l = hs
  induction out with
  | nil => rfl
  | cons x out ih =>
    have hx : hear hs x = hs := by
      have hsilent := hout x List.mem_cons_self
      cases x with
      | getReader => cases hsilent
      | handler => cases hsilent
      | _ => rfl
    rw [List.foldl_cons, hx]
    exact ih fun y hy => hout y (List.mem_cons_of_mem _ hy)

theorem heard_handlers (l : List (Effect ν ε)) (ms : List (SseMessage ν)) :
    heard (l ++ ms.map .handler) = (heard l).modifyHead (· ++ ms) := by
  rw [heard_append]
  generalize heard l = hs
  induction ms generalizing hs with
  | nil => cases hs <;> simp
  | cons m ms ih =>
    rw [List.map_cons, List.foldl_cons, ih]
    cases hs <;> simp [hear]

theorem Calm.of_append {k : Callbacks ν ε} {l out : List (Effect ν ε)} (h : Calm k (l ++ out)) :
    Calm k l := fun pre message hpre => h pre message (hpre.trans (List.prefix_append l out))

end Effects

/-! ## Operations -/

namespace Connection
section Operations
variable {ν ε : Type} {k : Callbacks ν ε} {c : Connection ν ε}

/-- An operation that leaves the reading, and of which the handler hears nothing. -/
structure Leaves (c c' : Connection ν ε) : Prop where
  effects : ∃ out, c'.effects = c.effects ++ out ∧ ∀ x ∈ out, x.silent = true
  phase : ∀ decoder buffer, c'.phase ≠ .reading decoder buffer

theorem Leaves.finish (c : Connection ν ε) : Leaves c c.finish :=
  ⟨⟨[], (List.append_nil _).symm, by simp⟩, fun _ _ h => by cases h⟩

theorem Leaves.loop (c : Connection ν ε) : Leaves c c.loop := by
  unfold Connection.loop
  split
  · exact .finish c
  · exact ⟨⟨[.fetch], rfl, by simp [Effect.silent]⟩, fun _ _ h => by cases h⟩

theorem Leaves.pause (c : Connection ν ε) : Leaves c c.pause :=
  ⟨⟨[.sleep c.backoffMs], rfl, by simp [Effect.silent]⟩, fun _ _ h => by cases h⟩

theorem Leaves.caught (k : Callbacks ν ε) (c : Connection ν ε) (e : ε) :
    Leaves c (c.caught k e) := by
  unfold Connection.caught
  split
  · exact .finish c
  split
  · exact .pause c
  dsimp only
  split
  · exact ⟨⟨[.onError e], rfl, by simp [Effect.silent]⟩, fun _ _ h => by cases h⟩
  · exact ⟨⟨[.onError e, .sleep c.backoffMs], List.append_assoc _ _ _, by simp [Effect.silent]⟩,
      fun _ _ h => by cases h⟩

theorem Leaves.ended (c : Connection ν ε) : Leaves c c.ended := by
  unfold Connection.ended
  split
  · exact .finish c
  · exact .pause c

theorem Leaves.woken (c : Connection ν ε) : Leaves c c.woken :=
  ⟨(Leaves.loop _).effects, (Leaves.loop _).phase⟩

/-- The messages go to the handler until it throws. -/
def deliver (k : Callbacks ν ε) : List (SseMessage ν) → Connection ν ε → Connection ν ε × Option ε
  | [], c => (c, none)
  | m :: ms, c =>
    match (c.handle k m).2 with
    | none => deliver k ms (c.handle k m).1
    | some e => ((c.handle k m).1, some e)

/-- The innermost loop hands over the messages of the complete blocks. -/
theorem cutBlocks_eq (toNumber : JsString → ν) {n : ℕ} {buffer : JsString}
    (hn : buffer.length ≤ n) (c : Connection ν ε) : cutBlocks toNumber k n buffer c =
      ((c.deliver k (((blankLine cr lf).drain buffer).1.filterMap (parseSseBlock toNumber))).1,
        match (c.deliver k
          (((blankLine cr lf).drain buffer).1.filterMap (parseSseBlock toNumber))).2 with
        | none => .ok ((blankLine cr lf).drain buffer).2
        | some e => .error e) := by
  rw [← Cutter.pieces_eq_drain hn]
  clear hn
  induction n generalizing buffer c with
  | zero => rfl
  | succ n ih =>
    cases hcut : cutBlank cr lf buffer with
    | none =>
      rw [cutBlocks, hcut, Cutter.pieces_of_none hcut]
      rfl
    | some p =>
      obtain ⟨block, rest⟩ := p
      rw [cutBlocks, hcut, Cutter.pieces_of_some hcut, List.filterMap_cons]
      dsimp only
      cases parseSseBlock toNumber block with
      | none => exact ih c
      | some message =>
        dsimp only
        rw [deliver]
        cases (c.handle k message).2 with
        | none => exact ih _
        | some e => rfl

/-- What the handler has been given, and that it is all unless it threw. -/
theorem deliver_spec (ms : List (SseMessage ν)) (c : Connection ν ε) :
    ∃ done rest, ms = done ++ rest ∧
      (c.deliver k ms).1.effects = c.effects ++ done.map .handler ∧
      ((c.deliver k ms).2 = none → rest = []) ∧
      ((c.deliver k ms).2 ≠ none → ¬ Calm k (c.deliver k ms).1.effects) := by
  induction ms generalizing c with
  | nil => exact ⟨[], [], rfl, (List.append_nil _).symm, fun _ => rfl, fun h => absurd rfl h⟩
  | cons m ms ih =>
    rw [deliver]
    cases hthrown : (c.handle k m).2 with
    | none =>
      obtain ⟨done, rest, hms, heffects, hall, hcalm⟩ := ih (c.handle k m).1
      refine ⟨m :: done, rest, congrArg (m :: ·) hms, ?_, hall, hcalm⟩
      exact heffects.trans (List.append_assoc _ _ _)
    | some e =>
      refine ⟨[m], ms, rfl, rfl, (fun h => by cases h), fun _ hcalm => ?_⟩
      have hnone := hcalm c.effects m List.prefix_rfl
      cases hnone.symm.trans hthrown

theorem deliver_rest (ms : List (SseMessage ν)) (c : Connection ν ε) :
    (c.deliver k ms).1.backoffMs = c.backoffMs ∧
      (c.stopped = true → (c.deliver k ms).1.stopped = true) := by
  induction ms generalizing c with
  | nil => exact ⟨rfl, id⟩
  | cons m ms ih =>
    have hstop : c.stopped = true → (c.handle k m).1.stopped = true := by
      intro h
      show (c.stopped || _) = true
      rw [h, Bool.true_or]
    rw [deliver]
    cases (c.handle k m).2 with
    | none => exact ⟨(ih _).1, fun h => (ih _).2 (hstop h)⟩
    | some e => exact ⟨rfl, hstop⟩

end Operations
end Connection

/-! ## Delivery -/

section Delivery
variable {ν ε : Type} {toNumber : JsString → ν} {newError : JsString → ε} {k : Callbacks ν ε}
variable {c c' : Connection ν ε} {bs : List (List Bytes)}

/-- Of each body the handler heard a beginning of its messages, and all of them unless it threw. Of
the body that is being read it has heard all so far. -/
structure Kept (toNumber : JsString → ν) (k : Callbacks ν ε) (bs : List (List Bytes))
    (c : Connection ν ε) : Prop where
  parts : List.Forall₂ (fun part chunks => part <+: messages toNumber chunks) (heard c.effects) bs
  calm : Calm k c.effects → heard c.effects = bs.map (messages toNumber)
  reading : ∀ decoder buffer, c.phase = .reading decoder buffer → ∃ chunks bs', bs = chunks :: bs' ∧
    (heard c.effects).head? = some (messages toNumber chunks) ∧
    decoder = (TextDecoder.new.stream chunks.flatten).2 ∧
    buffer = ((blankLine cr lf).drain (TextDecoder.new.stream chunks.flatten).1).2

/-- What a chunk adds to the messages of a body. -/
theorem messages_concat (toNumber : JsString → ν) (chunks : List Bytes) (value : Bytes) :
    messages toNumber (chunks ++ [value]) = messages toNumber chunks ++
      ((blankLine cr lf).drain (((blankLine cr lf).drain
        (TextDecoder.new.stream chunks.flatten).1).2 ++
          ((TextDecoder.new.stream chunks.flatten).2.stream value).1)).1.filterMap
            (parseSseBlock toNumber) := by
  rw [messages, List.flatten_append, List.flatten_singleton, TextDecoder.stream_append]
  dsimp only
  rw [Cutter.drain_append, List.filterMap_append]
  rfl

theorem Kept.leaves (h : Kept toNumber k bs c) (hc : c.Leaves c') : Kept toNumber k bs c' := by
  obtain ⟨out, heffects, hout⟩ := hc.effects
  have hheard : heard c'.effects = heard c.effects := by rw [heffects, heard_silent _ hout]
  refine ⟨hheard ▸ h.parts, fun hcalm => ?_, fun d b hphase => absurd hphase (hc.phase d b)⟩
  rw [heffects] at hcalm
  exact hheard.trans (h.calm hcalm.of_append)

theorem Kept.refused (h : Kept toNumber k bs c) (status : ℕ) :
    Kept toNumber k bs { c with phase := .refused status } :=
  ⟨h.parts, h.calm, fun _ _ hphase => by cases hphase⟩

theorem Kept.stop (h : Kept toNumber k bs c) : Kept toNumber k bs c.stop :=
  ⟨h.parts, h.calm, h.reading⟩

theorem Kept.read {decoder : TextDecoder} {buffer : JsString}
    (h : Kept toNumber k bs { c with phase := .reading decoder buffer }) :
    Kept toNumber k bs (c.read decoder buffer) := by
  unfold Connection.read
  split
  · exact ⟨h.parts, h.calm, fun _ _ hphase => by cases hphase⟩
  · exact h

/-- A response with a body begins a new one. -/
theorem Kept.response (h : Kept toNumber k bs c) (status : ℕ) (hasBody : Bool) :
    Kept toNumber k (receive bs (.response status hasBody : Event ε))
      (c.response newError k status hasBody) := by
  cases hok : Connection.isOk status with
  | false =>
    simp only [receive, Connection.response, hok, Bool.false_and, Bool.false_eq_true, if_false]
    exact h.refused status
  | true =>
    cases hasBody with
    | false =>
      simp only [receive, Connection.response, hok, Bool.and_false, Bool.false_eq_true, if_false,
        if_true]
      exact h.leaves (.caught k c _)
    | true =>
      simp only [receive, Connection.response, hok, Bool.and_true, if_true]
      have hheard : heard (c.effects ++ [.getReader]) = [] :: heard c.effects := heard_append _ _
      have hnil : messages toNumber [] = ([] : List (SseMessage ν)) := rfl
      refine Kept.read ⟨?_, fun hcalm => ?_, ?_⟩
      · show List.Forall₂ _ (heard (c.effects ++ [.getReader])) _
        rw [hheard]
        exact .cons List.nil_prefix h.parts
      · show heard (c.effects ++ [.getReader]) = _
        rw [hheard, h.calm hcalm.of_append, List.map_cons, hnil]
      · rintro d b ⟨⟩
        exact ⟨[], bs, rfl, congrArg List.head? hheard, rfl, rfl⟩

/-- A chunk goes on with the body that is being read. -/
theorem Kept.chunk (h : Kept toNumber k bs c) {decoder : TextDecoder} {buffer : JsString}
    (hphase : c.phase = .reading decoder buffer) (value : Bytes) :
    Kept toNumber k (receive bs (.chunk value : Event ε))
      (c.chunk toNumber k decoder buffer value) := by
  obtain ⟨chunks, bs', rfl, hhead, rfl, rfl⟩ := h.reading _ _ hphase
  have hconcat := messages_concat toNumber chunks value
  unfold Connection.chunk receive
  dsimp only
  rw [Connection.cutBlocks_eq toNumber le_rfl]
  generalize hms : (((blankLine cr lf).drain (((blankLine cr lf).drain
    (TextDecoder.new.stream chunks.flatten).1).2 ++
      ((TextDecoder.new.stream chunks.flatten).2.stream value).1)).1.filterMap
        (parseSseBlock toNumber)) = ms at hconcat ⊢
  obtain ⟨done, rest, hdone, heffects, hall, hthrew⟩ := Connection.deliver_spec (k := k) ms c
  obtain ⟨parts, hparts⟩ := List.head?_eq_some_iff.mp hhead
  have hheard : heard (c.deliver k ms).1.effects = (messages toNumber chunks ++ done) :: parts := by
    rw [heffects, heard_handlers, hparts, List.modifyHead_cons]
  have hrest := h.parts
  rw [hparts, List.forall₂_cons] at hrest
  have hkept : List.Forall₂ (fun part chunks => part <+: messages toNumber chunks)
      (heard (c.deliver k ms).1.effects) ((chunks ++ [value]) :: bs') := by
    rw [hheard]
    refine .cons ⟨rest, ?_⟩ hrest.2
    rw [List.append_assoc, ← hdone, hconcat]
  cases hthrown : (c.deliver k ms).2 with
  | none =>
    obtain rfl := hall hthrown
    rw [List.append_nil] at hdone
    have hmessages : messages toNumber chunks ++ done = messages toNumber (chunks ++ [value]) := by
      rw [hconcat, hdone]
    refine Kept.read ⟨hkept, fun hcalm => ?_, ?_⟩
    · have hbefore : Calm k c.effects := by
        rw [heffects] at hcalm
        exact hcalm.of_append
      have hparts' := h.calm hbefore
      rw [hparts, List.map_cons] at hparts'
      show heard (c.deliver k ms).1.effects = _
      rw [hheard, hmessages, (List.cons_inj_right _).mp hparts', List.modifyHead_cons, List.map_cons]
    · rintro d b ⟨⟩
      refine ⟨chunks ++ [value], bs', rfl, ?_, ?_, ?_⟩
      · show (heard (c.deliver k ms).1.effects).head? = _
        rw [hheard, hmessages, List.head?_cons]
      · rw [List.flatten_append, List.flatten_singleton, TextDecoder.stream_append]
      · rw [List.flatten_append, List.flatten_singleton, TextDecoder.stream_append]
        dsimp only
        rw [Cutter.drain_append (TextDecoder.new.stream chunks.flatten).1]
  | some e =>
    have hfinish : Kept toNumber k ((chunks ++ [value]) :: bs') (c.deliver k ms).1.finish :=
      ⟨hkept, fun hcalm => absurd hcalm (hthrew (by simp [hthrown])), fun _ _ hd => by cases hd⟩
    obtain ⟨heff, hphase'⟩ := Connection.Leaves.caught k (c.deliver k ms).1 e
    exact hfinish.leaves ⟨heff, hphase'⟩

theorem Kept.step {e : Event ε} (hstep : Step toNumber newError k c e c')
    (h : Kept toNumber k bs c) : Kept toNumber k (receive bs e) c' := by
  unfold Step Event.apply at hstep
  cases e with
  | response status hasBody =>
    dsimp only at hstep
    split at hstep
    · cases hstep
      exact h.response status hasBody
    · cases hstep
  | text body =>
    dsimp only at hstep
    split at hstep
    · cases hstep
      exact h.leaves (.caught k c _)
    · cases hstep
  | chunk value =>
    dsimp only at hstep
    split at hstep
    · rename_i decoder buffer hphase
      cases hstep
      exact h.chunk hphase value
    · cases hstep
  | ended =>
    dsimp only at hstep
    split at hstep
    · cases hstep
      exact h.leaves (.ended c)
    · cases hstep
  | rejected e =>
    dsimp only at hstep
    split at hstep
    · cases hstep
      exact h.leaves (.caught k c e)
    · cases hstep
      exact h.leaves (.caught k c e)
    · cases hstep
      exact h.leaves (.caught k c e)
    · cases hstep
  | woken =>
    dsimp only at hstep
    split at hstep
    · cases hstep
      exact h.leaves (.woken c)
    · cases hstep
  | stop =>
    cases hstep
    exact h.stop

theorem Kept.start : Kept toNumber k [] (Connection.start : Connection ν ε) :=
  ⟨.nil, fun _ => rfl, fun _ _ h => by cases h⟩

theorem Kept.steps {es : List (Event ε)}
    (h : Steps (Step toNumber newError k) Connection.start es c) : Kept toNumber k (bodies es) c := by
  refine h.history (P := fun es c => Kept toNumber k (bodies es) c) .start ?_
  intro pre e u v _ _ hu hstep
  have hnext := hu.step hstep
  rwa [bodies, List.foldl_append]

end Delivery

/-! ## The scores -/

section Scores
variable {ν ε N : Type} (toNumber : JsString → ν) (number : JsString → Option N)

/-- What `streamScores` makes of a message. -/
def scoresOf (message : SseMessage ν) : List (Document N) :=
  if isObject (parseSseData number message.data) then [parseSseData number message.data] else []

/-- The callbacks of `streamScores` for those of its caller. -/
def scoresCallbacks (handler : List (Effect ν ε) → Document N → Outcome ε)
    (onError : Option (List (Effect ν ε) → ε → Outcome ε)) : Callbacks ν ε where
  handler effects message :=
    if isObject (parseSseData number message.data) then
      handler effects (parseSseData number message.data)
    else ⟨none, false⟩
  onError := onError

/-- No data is no JSON text, so that a block without any may as well be skipped. -/
theorem pushed_eq_scoresOf (block : JsString) : pushed toNumber number block =
    (parseSseBlock toNumber block).toList.flatMap (scoresOf number) := by
  rw [pushed]
  cases parseSseBlock toNumber block with
  | none => rfl
  | some message =>
    dsimp only
    rw [Option.toList_some, List.flatMap_singleton, scoresOf]
    split
    · rename_i hempty
      rw [hempty, parseSseData, parseDocument_nil]
      rfl
    · rfl

theorem flatMap_pushed_eq (blocks : List JsString) : blocks.flatMap (pushed toNumber number) =
    (blocks.filterMap (parseSseBlock toNumber)).flatMap (scoresOf number) := by
  induction blocks with
  | nil => rfl
  | cons block blocks ih =>
    rw [List.flatMap_cons, ih, pushed_eq_scoresOf, List.filterMap_cons]
    cases parseSseBlock toNumber block with
    | none => rfl
    | some message =>
      rw [Option.toList_some, List.flatMap_singleton]
      rfl

theorem pushed_length_le (block : JsString) : (pushed toNumber number block).length ≤ 1 := by
  rw [pushed_eq]
  cases payload number (nonblank (splitLines block)) <;> simp

/-- What stands behind the last blank line of a body. -/
def unfinished (chunks : List Bytes) : JsString :=
  ((blankLine cr lf).drain (TextDecoder.text chunks.flatten)).2

/-- What is collected of a body: the scores of its messages, and of what stands behind them. -/
theorem collected_messages (chunks : List Bytes) :
    collectSseStream toNumber number (some chunks) =
      .ok ((messages toNumber chunks).flatMap (scoresOf number) ++
        pushed toNumber number (unfinished chunks)) := by
  rw [collectSseStream_drain, flatMap_pushed_eq, drain_text, unfinished, drain_text]
  rfl

end Scores

/-- **What a live connection hands over is what a request for the whole would collect.** However the
bodies are cut into chunks, whatever the callbacks do and however often the connection drops or is
stopped: of each body the handler of `streamScores` got, in order, a beginning of the updates that
`collectSseStream` reads from the chunks received, and unless it has thrown all but the one behind
the last blank line, if there is one. -/
theorem streamed_as_collected {ν ε N : Type} (toNumber : JsString → ν) (newError : JsString → ε)
    (number : JsString → Option N) (handler : List (Effect ν ε) → Document N → Outcome ε)
    (onError : Option (List (Effect ν ε) → ε → Outcome ε)) {es : List (Event ε)}
    {c : Connection ν ε}
    (h : Steps (Step toNumber newError (scoresCallbacks number handler onError))
      Connection.start es c) :
    List.Forall₂ (fun part chunks => ∃ missed,
      collectSseStream toNumber number (some chunks) =
        .ok (part.flatMap (scoresOf number) ++ missed ++
          pushed toNumber number (unfinished chunks)) ∧
      (pushed toNumber number (unfinished chunks)).length ≤ 1 ∧
      (Calm (scoresCallbacks number handler onError) c.effects → missed = []))
      (heard c.effects) (bodies es) := by
  have hkept := Kept.steps h
  by_cases hcalm : Calm (scoresCallbacks number handler onError) c.effects
  · rw [hkept.calm hcalm, List.forall₂_map_left_iff, List.forall₂_same]
    intro chunks _
    refine ⟨[], ?_, pushed_length_le toNumber number _, fun _ => rfl⟩
    rw [collected_messages, List.append_nil]
  · refine hkept.parts.imp fun part chunks hpart => ?_
    obtain ⟨missed, hmissed⟩ := hpart
    refine ⟨missed.flatMap (scoresOf number), ?_, pushed_length_le toNumber number _,
      fun h => absurd h hcalm⟩
    rw [collected_messages, ← hmissed, List.flatMap_append]

/-- Two updates, the second of which is still to come when the connection drops, and a second
connection. -/
theorem streamed_as_collected_sample :
    ∃ c : Connection Unit Unit,
      heard c.effects = [[⟨none, none, Utf16.ofString "[1]", none⟩],
        [⟨none, none, Utf16.ofString "[]", none⟩]] ∧
      List.Forall₂ (fun part chunks => ∃ missed,
        collectSseStream (fun _ => ()) (fun _ => some ()) (some chunks) =
          .ok (part.flatMap (scoresOf fun _ => some ()) ++ missed ++
            pushed (fun _ => ()) (fun _ => some ()) (unfinished chunks)) ∧
        (pushed (fun _ => ()) (fun _ => some ()) (unfinished chunks)).length ≤ 1 ∧
        (Calm (scoresCallbacks (fun _ => some ()) (fun _ _ => ⟨none, false⟩) none) c.effects →
          missed = []))
        (heard c.effects) [[Utf8.encode "data: [1]\n\n".toList],
          [Utf8.encode "data: []\r".toList, Utf8.encode "\n\ndata: [2]".toList]] := by
  have hrun : Steps (Step (fun _ => ()) (fun _ => ())
      (scoresCallbacks (fun _ => some ()) (fun _ _ => ⟨none, false⟩) none)) Connection.start
      [.response 200 true, .chunk (Utf8.encode "data: []\r".toList),
        .chunk (Utf8.encode "\n\ndata: [2]".toList), .ended, .woken, .response 200 true,
        .chunk (Utf8.encode "data: [1]\n\n".toList)] _ :=
    .cons rfl (.cons rfl (.cons rfl (.cons rfl (.cons rfl (.cons rfl (.cons rfl (.nil _)))))))
  exact ⟨_, rfl, streamed_as_collected _ _ _ _ _ hrun⟩

/-! ## The pace of the attempts -/

section Pace
variable {ν ε : Type}

/-- The number of sleeps since the last response that had a body. -/
def attempt (n : ℕ) : Effect ν ε → ℕ
  | .getReader => 0
  | .sleep _ => n + 1
  | _ => n

def attempts (effects : List (Effect ν ε)) : ℕ := effects.foldl attempt 0

def backoff (n : ℕ) : ℕ := min (1000 * 2 ^ n) maxBackoff

/-- Each sleep is as long as the attempts in front of it ask for, and each fetch but the first is
made right after one. -/
structure Scheduled (effects : List (Effect ν ε)) : Prop where
  sleep : ∀ pre ms, pre ++ [.sleep ms] <+: effects → ms = backoff (attempts pre)
  fetch : ∀ pre, pre ++ [.fetch] <+: effects → pre = [] ∨ ∃ pre' ms, pre = pre' ++ [.sleep ms]

/-- Neither a sleep nor a fetch. -/
def Effect.timeless : Effect ν ε → Bool
  | .fetch => false
  | .getReader => true
  | .handler _ => true
  | .onError _ => true
  | .sleep _ => false

theorem backoff_succ (n : ℕ) : min (backoff n * 2) maxBackoff = backoff (n + 1) := by
  rw [backoff, backoff, maxBackoff, pow_succ]
  omega

theorem attempts_append (l out : List (Effect ν ε)) :
    attempts (l ++ out) = out.foldl attempt (attempts l) := List.foldl_append

theorem attempts_handlers (l : List (Effect ν ε)) (ms : List (SseMessage ν)) :
    attempts (l ++ ms.map .handler) = attempts l := by
  rw [attempts_append]
  induction ms with
  | nil => rfl
  | cons m ms ih => exact ih

namespace Scheduled
variable {l out : List (Effect ν ε)}

theorem timeless (h : Scheduled l) (hout : ∀ x ∈ out, x.timeless = true) :
    Scheduled (l ++ out) where
  sleep pre ms hpre := by
    rcases prefix_append_cases hpre with hl | hmem
    · exact h.sleep pre ms hl
    · cases hout _ hmem
  fetch pre hpre := by
    rcases prefix_append_cases hpre with hl | hmem
    · exact h.fetch pre hl
    · cases hout _ hmem

theorem append_sleep (h : Scheduled l) : Scheduled (l ++ [.sleep (backoff (attempts l))]) where
  sleep pre ms hpre := by
    rcases List.prefix_concat_iff.mp hpre with heq | hl
    · obtain ⟨rfl, hlast⟩ := List.append_inj' heq rfl
      cases hlast
      rfl
    · exact h.sleep pre ms hl
  fetch pre hpre := by
    rcases prefix_append_cases hpre with hl | hmem
    · exact h.fetch pre hl
    · cases List.mem_singleton.mp hmem

theorem append_fetch {pre : List (Effect ν ε)} {ms : ℕ} (h : Scheduled (pre ++ [.sleep ms])) :
    Scheduled (pre ++ [.sleep ms] ++ [.fetch]) where
  sleep pre' ms' hpre := by
    rcases prefix_append_cases hpre with hl | hmem
    · exact h.sleep pre' ms' hl
    · cases List.mem_singleton.mp hmem
  fetch pre' hpre := by
    rcases List.prefix_concat_iff.mp hpre with heq | hl
    · obtain ⟨rfl, -⟩ := List.append_inj' heq rfl
      exact .inr ⟨pre, ms, rfl⟩
    · exact h.fetch pre' hl

end Scheduled

variable {toNumber : JsString → ν} {newError : JsString → ε} {k : Callbacks ν ε}
variable {c c' : Connection ν ε}

/-- While the loop is awake, the next sleep is the one that is due. -/
structure Awake (c : Connection ν ε) : Prop where
  scheduled : Scheduled c.effects
  due : c.backoffMs = backoff (attempts c.effects)

structure Paced (c : Connection ν ε) : Prop where
  scheduled : Scheduled c.effects
  awake : c.phase ≠ .sleeping → c.backoffMs = backoff (attempts c.effects)
  asleep : c.phase = .sleeping →
    ∃ pre ms, c.effects = pre ++ [.sleep ms] ∧ c.backoffMs = backoff (attempts pre)

namespace Awake

theorem paced (h : Awake c) (hphase : c.phase ≠ .sleeping) : Paced c :=
  ⟨h.scheduled, fun _ => h.due, fun hsleep => absurd hsleep hphase⟩

theorem finish (h : Awake c) : Paced c.finish :=
  ⟨h.scheduled, fun _ => h.due, fun hsleep => by cases hsleep⟩

theorem pause (h : Awake c) : Paced c.pause where
  scheduled := by
    have hsleep := h.scheduled.append_sleep
    rw [← h.due] at hsleep
    exact hsleep
  awake hphase := absurd rfl hphase
  asleep _ := ⟨c.effects, c.backoffMs, rfl, h.due⟩

theorem caught (h : Awake c) (e : ε) : Paced (c.caught k e) := by
  have hcalled (o : Outcome ε) : Awake ((c.emit (.onError e)).obey o) :=
    ⟨h.scheduled.timeless (by simp [Effect.timeless]), h.due.trans (by
      show _ = backoff (attempts (c.effects ++ [.onError e]))
      rw [attempts_append]
      rfl)⟩
  unfold Connection.caught
  split
  · exact h.finish
  split
  · exact h.pause
  dsimp only
  split
  · exact (hcalled _).finish
  · exact (hcalled _).pause

theorem read (h : Awake c) (decoder : TextDecoder) (buffer : JsString) :
    Paced (c.read decoder buffer) := by
  unfold Connection.read
  split
  · exact h.finish
  · exact ⟨h.scheduled, fun _ => h.due, fun hsleep => by cases hsleep⟩

theorem deliver (h : Awake c) (ms : List (SseMessage ν)) : Awake (c.deliver k ms).1 := by
  obtain ⟨done, rest, -, heffects, -⟩ := Connection.deliver_spec (k := k) ms c
  refine ⟨?_, ?_⟩
  · rw [heffects]
    exact h.scheduled.timeless (by simp [Effect.timeless])
  · rw [(Connection.deliver_rest ms c).1, heffects, attempts_handlers]
    exact h.due

theorem response (h : Awake c) (status : ℕ) (hasBody : Bool) :
    Paced (c.response newError k status hasBody) := by
  unfold Connection.response
  split
  · split
    · have hopened : Awake { c.emit .getReader with backoffMs := 1000 } := by
        refine ⟨h.scheduled.timeless (by simp [Effect.timeless]), ?_⟩
        show 1000 = backoff (attempts (c.effects ++ [.getReader]))
        rw [attempts_append]
        rfl
      exact hopened.read _ _
    · exact h.caught _
  · exact ⟨h.scheduled, fun _ => h.due, fun hsleep => by cases hsleep⟩

theorem chunk (h : Awake c) (decoder : TextDecoder) (buffer : JsString) (value : Bytes) :
    Paced (c.chunk toNumber k decoder buffer value) := by
  unfold Connection.chunk
  dsimp only
  rw [Connection.cutBlocks_eq toNumber le_rfl]
  generalize ((blankLine cr lf).drain _).1.filterMap (parseSseBlock toNumber) = ms
  cases (c.deliver k ms).2 with
  | none => exact (h.deliver ms).read _ _
  | some e => exact (h.deliver ms).caught e

theorem ended (h : Awake c) : Paced c.ended := by
  unfold Connection.ended
  split
  · exact h.finish
  · exact h.pause

end Awake

namespace Paced

theorem of_phase (h : Paced c) {phase : Phase} (hphase : c.phase = phase)
    (hne : phase ≠ .sleeping) : Awake c :=
  ⟨h.scheduled, h.awake (hphase ▸ hne)⟩

theorem start : Paced (Connection.start : Connection ν ε) where
  scheduled := by
    refine ⟨fun pre ms hpre => ?_, fun pre hpre => ?_⟩
    · rcases prefix_append_cases (l := []) hpre with hl | hmem
      · exact absurd (List.prefix_nil.mp hl) (by simp)
      · cases List.mem_singleton.mp hmem
    · rcases List.prefix_concat_iff.mp (show pre ++ [.fetch] <+: [] ++ [.fetch] from hpre) with h | h
      · exact .inl (List.append_inj' h rfl).1
      · exact absurd (List.prefix_nil.mp h) (by simp)
  awake _ := rfl
  asleep h := by cases h

theorem woken (h : Paced c) (hsleep : c.phase = .sleeping) : Paced c.woken := by
  obtain ⟨pre, ms, heffects, hbackoff⟩ := h.asleep hsleep
  have hattempts : attempts c.effects = attempts pre + 1 := by
    rw [heffects, attempts_append]
    rfl
  have hnext : min (c.backoffMs * 2) maxBackoff = backoff (attempts c.effects) := by
    rw [hattempts, hbackoff, backoff_succ]
  unfold Connection.woken Connection.loop
  split
  · exact ⟨h.scheduled, fun _ => hnext, fun hs => by cases hs⟩
  · refine ⟨?_, fun _ => ?_, fun hs => by cases hs⟩
    · show Scheduled (c.effects ++ [.fetch])
      rw [heffects]
      exact Scheduled.append_fetch (heffects ▸ h.scheduled)
    · show _ = backoff (attempts (c.effects ++ [.fetch]))
      rw [attempts_append]
      exact hnext

theorem step {e : Event ε} (hstep : Step toNumber newError k c e c') (h : Paced c) :
    Paced c' := by
  unfold Step Event.apply at hstep
  cases e with
  | response status hasBody =>
    dsimp only at hstep
    split at hstep
    · rename_i hphase
      cases hstep
      exact (h.of_phase hphase (by simp)).response status hasBody
    · cases hstep
  | text body =>
    dsimp only at hstep
    split at hstep
    · rename_i hphase
      cases hstep
      exact (h.of_phase hphase (by simp)).caught _
    · cases hstep
  | chunk value =>
    dsimp only at hstep
    split at hstep
    · rename_i hphase
      cases hstep
      exact (h.of_phase hphase (by simp)).chunk _ _ value
    · cases hstep
  | ended =>
    dsimp only at hstep
    split at hstep
    · rename_i hphase
      cases hstep
      exact (h.of_phase hphase (by simp)).ended
    · cases hstep
  | rejected e =>
    dsimp only at hstep
    split at hstep
    · rename_i hphase
      cases hstep
      exact (h.of_phase hphase (by simp)).caught e
    · rename_i hphase
      cases hstep
      exact (h.of_phase hphase (by simp)).caught e
    · rename_i hphase
      cases hstep
      exact (h.of_phase hphase (by simp)).caught e
    · cases hstep
  | woken =>
    dsimp only at hstep
    split at hstep
    · rename_i hphase
      cases hstep
      exact h.woken hphase
    · cases hstep
  | stop =>
    cases hstep
    exact ⟨h.scheduled, h.awake, h.asleep⟩

end Paced
/-! ## A loop that is stopped -/

/-- What the loop may still do when it is stopped. -/
def Effect.last : Effect ν ε → Bool
  | .fetch => false
  | .getReader => true
  | .handler _ => true
  | .onError _ => false
  | .sleep _ => false

def Event.isAnswer : Event ε → Bool
  | .stop => false
  | _ => true

def Event.isChunk : Event ε → Bool
  | .chunk _ => true
  | _ => false

/-- How many answers a stopped loop still waits for. -/
def Phase.rank : Phase → ℕ
  | .fetching => 2
  | .refused _ => 1
  | .reading _ _ => 1
  | .sleeping => 1
  | .over => 0

/-- A stopped loop ends here, with no more than handler calls. -/
structure Ends (c c' : Connection ν ε) : Prop where
  stopped : c'.stopped = true
  phase : c'.phase = .over
  effects : ∃ out, c'.effects = c.effects ++ out ∧ ∀ x ∈ out, x.last = true

namespace Ends

theorem finish (h : c.stopped = true) : Ends c c.finish :=
  ⟨h, rfl, [], (List.append_nil _).symm, by simp⟩

theorem caught (h : c.stopped = true) (e : ε) : Ends c (c.caught k e) := by
  unfold Connection.caught
  rw [if_pos h]
  exact finish h

theorem read (h : c.stopped = true) (decoder : TextDecoder) (buffer : JsString) :
    Ends c (c.read decoder buffer) := by
  unfold Connection.read
  rw [if_pos h]
  exact finish h

/-- The end, after some calls of the handler. -/
theorem after {d : Connection ν ε} (h : Ends d c')
    (heffects : ∃ out, d.effects = c.effects ++ out ∧ ∀ x ∈ out, x.last = true) : Ends c c' := by
  obtain ⟨out, hd, hout⟩ := heffects
  obtain ⟨out', hc', hout'⟩ := h.effects
  refine ⟨h.stopped, h.phase, out ++ out', ?_, ?_⟩
  · rw [hc', hd, List.append_assoc]
  · intro x hx
    rcases List.mem_append.mp hx with hx | hx
    · exact hout x hx
    · exact hout' x hx

theorem chunk (h : c.stopped = true) (decoder : TextDecoder) (buffer : JsString) (value : Bytes) :
    Ends c (c.chunk toNumber k decoder buffer value) := by
  unfold Connection.chunk
  dsimp only
  rw [Connection.cutBlocks_eq toNumber le_rfl]
  generalize ((blankLine cr lf).drain _).1.filterMap (parseSseBlock toNumber) = ms
  obtain ⟨done, rest, -, heffects, -⟩ := Connection.deliver_spec (k := k) ms c
  have hstopped := (Connection.deliver_rest (k := k) ms c).2 h
  have hdone : ∃ out, (c.deliver k ms).1.effects = c.effects ++ out ∧ ∀ x ∈ out, x.last = true :=
    ⟨_, heffects, by simp [Effect.last]⟩
  cases (c.deliver k ms).2 with
  | none => exact (read hstopped _ _).after hdone
  | some e => exact (caught hstopped e).after hdone

end Ends

theorem Ends.response (newError : List UInt16 → ε) (h : c.stopped = true) (status : ℕ)
    (hasBody : Bool) :
    (c.response newError k status hasBody).stopped = true ∧
      (c.response newError k status hasBody).phase.rank ≤ 1 ∧
      ∃ out, (c.response newError k status hasBody).effects = c.effects ++ out ∧
        ∀ x ∈ out, x.last = true := by
  unfold Connection.response
  split
  · have hends {d d' : Connection ν ε} (hd : Ends d d') :
        d'.stopped = true ∧ d'.phase.rank ≤ 1 := by
      rw [hd.phase]
      exact ⟨hd.stopped, Nat.zero_le 1⟩
    split
    · have hread := Ends.read (c := { c.emit .getReader with backoffMs := 1000 }) h
        TextDecoder.new []
      exact ⟨(hends hread).1, (hends hread).2,
        (hread.after (c := c) ⟨[.getReader], rfl, by simp [Effect.last]⟩).effects⟩
    · have hcaught := Ends.caught (k := k) h (newError (Utf16.ofString "Stream response has no body"))
      exact ⟨(hends hcaught).1, (hends hcaught).2, hcaught.effects⟩
  · exact ⟨h, le_rfl, [], (List.append_nil _).symm, by simp⟩

/-- One step of a loop that is stopped: `stop()` again, or an answer that gets it on towards its end. -/
structure Winds (c : Connection ν ε) (e : Event ε) (c' : Connection ν ε) : Prop where
  stopped : c'.stopped = true
  effects : ∃ out, c'.effects = c.effects ++ out ∧ ∀ x ∈ out, x.last = true
  rank : c'.phase.rank + (if e.isAnswer then 1 else 0) ≤ c.phase.rank
  chunk : e.isChunk = true → c.phase.rank = 1

theorem Ends.winds {e : Event ε} (h : Ends c c') (hrank : 1 ≤ c.phase.rank)
    (hchunk : e.isChunk = true → c.phase.rank = 1) : Winds c e c' := by
  refine ⟨h.stopped, h.effects, ?_, hchunk⟩
  have hzero : c'.phase.rank = 0 := by rw [h.phase, Phase.rank]
  split <;> omega

theorem stopped_step {e : Event ε} (h : c.stopped = true)
    (hstep : Step toNumber newError k c e c') : Winds c e c' := by
  unfold Step Event.apply at hstep
  cases e with
  | response status hasBody =>
    dsimp only at hstep
    split at hstep
    · rename_i hphase
      cases hstep
      obtain ⟨hstopped, hrank, heffects⟩ := Ends.response newError h status
        hasBody
      refine ⟨hstopped, heffects, ?_, fun hc => by cases hc⟩
      rw [hphase]
      exact Nat.succ_le_succ hrank
    · cases hstep
  | text body =>
    dsimp only at hstep
    split at hstep
    · rename_i hphase
      cases hstep
      exact (Ends.caught h _).winds (by rw [hphase, Phase.rank]) fun hc => by cases hc
    · cases hstep
  | chunk value =>
    dsimp only at hstep
    split at hstep
    · rename_i hphase
      cases hstep
      have hrank : c.phase.rank = 1 := by rw [hphase, Phase.rank]
      exact (Ends.chunk h _ _ value).winds hrank.ge fun _ => hrank
    · cases hstep
  | ended =>
    dsimp only at hstep
    split at hstep
    · rename_i hphase
      cases hstep
      unfold Connection.ended
      rw [if_pos h]
      exact (Ends.finish h).winds (by rw [hphase, Phase.rank]) fun hc => by cases hc
    · cases hstep
  | rejected e =>
    have hcaught (hrank : 1 ≤ c.phase.rank) : Winds c (.rejected e) (c.caught k e) :=
      (Ends.caught h e).winds hrank fun hc => by cases hc
    dsimp only at hstep
    split at hstep
    · rename_i hphase
      cases hstep
      exact hcaught (by rw [hphase, Phase.rank]; decide)
    · rename_i hphase
      cases hstep
      exact hcaught (by rw [hphase, Phase.rank])
    · rename_i hphase
      cases hstep
      exact hcaught (by rw [hphase, Phase.rank])
    · cases hstep
  | woken =>
    dsimp only at hstep
    split at hstep
    · rename_i hphase
      cases hstep
      have hends : Ends c c.woken := by
        unfold Connection.woken Connection.loop
        rw [if_pos h]
        exact ⟨h, rfl, [], (List.append_nil _).symm, by simp⟩
      exact hends.winds (by rw [hphase, Phase.rank]) fun hc => by cases hc
    · cases hstep
  | stop =>
    cases hstep
    exact ⟨rfl, ⟨[], (List.append_nil _).symm, by simp⟩, le_rfl, fun hc => by cases hc⟩

/-- A stopped loop gets no more answers than its rank, and a chunk only while it reads. -/
theorem stopped_steps {late : List (Event ε)} (h : c.stopped = true)
    (hsteps : Steps (Step toNumber newError k) c late c') :
    (late.countP Event.isAnswer + c'.phase.rank ≤ c.phase.rank) ∧
      late.countP Event.isChunk ≤ 1 ∧
      ∃ out, c'.effects = c.effects ++ out ∧ ∀ x ∈ out, x.last = true := by
  induction hsteps with
  | nil c => exact ⟨by simp, by simp, [], (List.append_nil _).symm, by simp⟩
  | @cons c d c' e late hstep _ ih =>
    have hwinds := stopped_step h hstep
    obtain ⟨hanswers, hchunks, out, heffects, hout⟩ := ih hwinds.stopped
    obtain ⟨out', heffects', hout'⟩ := hwinds.effects
    have hrank := hwinds.rank
    have hle : late.countP Event.isChunk ≤ late.countP Event.isAnswer :=
      List.countP_mono_left fun e _ he => by cases e <;> first | rfl | cases he
    refine ⟨?_, ?_, out' ++ out, ?_, ?_⟩
    · rw [List.countP_cons]
      omega
    · rw [List.countP_cons]
      cases hchunk : e.isChunk with
      | false => simpa using hchunks
      | true =>
        have hanswer : e.isAnswer = true := by cases e <;> first | rfl | cases hchunk
        have hone := hwinds.chunk hchunk
        rw [hanswer] at hrank
        simp only [if_true] at hrank ⊢
        omega
    · rw [heffects, heffects', List.append_assoc]
    · intro x hx
      rcases List.mem_append.mp hx with hx | hx
      · exact hout' x hx
      · exact hout x hx

/-- **The pace of the attempts.** In every run, whatever the callbacks do, each sleep is
`min(1000·2ⁿ, 30000)` ms, with `n` the sleeps since the last response that had a body, and each fetch
but the first comes right after a sleep. Once it is stopped, from outside or by a callback, the loop
takes no more than two answers and one chunk, and then neither fetches nor sleeps nor reports an
error: the handler may still be called. -/
theorem paced_until_stopped {es : List (Event ε)}
    (h : Steps (Step toNumber newError k) Connection.start es c) :
    Scheduled c.effects ∧
      ∀ late c', c.stopped = true → Steps (Step toNumber newError k) c late c' →
        late.countP Event.isAnswer ≤ 2 ∧ late.countP Event.isChunk ≤ 1 ∧
          ∃ out, c'.effects = c.effects ++ out ∧ ∀ x ∈ out, x.last = true := by
  have hpaced : Paced c := h.invariant (fun _ _ _ _ => Paced.step) .start
  refine ⟨hpaced.scheduled, fun late c' hstopped hlate => ?_⟩
  obtain ⟨hanswers, hchunks, heffects⟩ := stopped_steps hstopped hlate
  have hrank : c.phase.rank ≤ 2 := by cases c.phase <;> simp [Phase.rank]
  exact ⟨by omega, hchunks, heffects⟩

/-- A refusal, a second attempt, and a stop while its response is awaited. -/
theorem paced_until_stopped_sample : ∃ c c' : Connection Unit JsString,
    c.effects = [.fetch, .onError (Utf16.ofString "SSE stream failed: 503 busy"), .sleep 1000,
      .fetch] ∧
      Scheduled c.effects ∧ c'.phase = .over ∧
      ∃ out, c'.effects = c.effects ++ out ∧ ∀ x ∈ out, x.last = true := by
  have hrun : Steps (Step (fun _ => ()) id
      ⟨fun _ _ => ⟨none, false⟩, some fun _ _ => ⟨none, false⟩⟩) Connection.start
      [.response 503 true, .text (Utf16.ofString "busy"), .woken, .stop] _ :=
    .cons rfl (.cons rfl (.cons rfl (.cons rfl (.nil _))))
  obtain ⟨hscheduled, hquiet⟩ := paced_until_stopped hrun
  exact ⟨_, _, rfl, hscheduled, rfl, (hquiet [.response 200 true] _ rfl (.single rfl)).2.2⟩

end Pace
end Stoppage.Sse
