import Oreo.Parse.Session
import Oreo.Proofs.Parse.Progress

/-!
# Sessions can be used again

A session may be used in any order: its place is moved by hand, kept and returned to, and programs
are read from it, which may fail anywhere. The levels of nesting that a reading opens are counted
here from one request to the next, so that a level which some failure left open would be seen, and
would be missing for the next reading.

None is left open. What stays of a session besides its tokens and its options is thus its place
alone, and from a place that is returned to, a program is read as it was from there before.
-/

namespace Oreo

/-- What may be asked of a session. -/
inductive Session.Request where
  /-- The current token is passed. -/
  | next
  /-- As many tokens as a word says are passed. -/
  | skip (count : UInt64)
  /-- The current place is kept. -/
  | checkpoint
  /-- The session returns to the place that was kept as the given one, counted from zero. -/
  | restore (index : Nat)
  /-- A program is read. -/
  | parse

/-- A session in use. -/
structure Usage where
  /-- The session. -/
  session : Session
  /-- How many levels of nesting are open. -/
  depth : Nat := 0
  /-- The places that were kept, in order. -/
  saved : List Checkpoint := []

namespace Usage

/-- A new session that no request has been made of. -/
def new (options : Options) (tokens : List Token) : Usage := { session := { options, tokens } }

/-- Reads a program in the room that the open levels leave. The levels that the reading opens and
closes are counted on. -/
def parse (usage : Usage) : Except ParseError (List Node) × Usage :=
  let session := usage.session
  let scope := { Scope.ofTokens session.options session.tokens with
    room := session.options.maxDepth - usage.depth }
  let reply := Parser.program scope session.rest
  (reply.outcome,
    { usage with
      session := { session with position := session.tokens.length - reply.rest.length }
      depth := Event.levels usage.depth reply.events })

/-- Does what is asked. A place that was not kept cannot be returned to. -/
def serve (usage : Usage) : Session.Request → Usage
  | .next => { usage with session := usage.session.next.2 }
  | .skip count => { usage with session := usage.session.skip count }
  | .checkpoint => { usage with saved := usage.saved ++ [usage.session.checkpoint] }
  | .restore index =>
    match usage.saved[index]? with
    | some checkpoint => { usage with session := usage.session.restore checkpoint }
    | none => usage
  | .parse => usage.parse.2

/-- Does what is asked, in order. -/
def serveAll (usage : Usage) (requests : List Session.Request) : Usage := requests.foldl serve usage

/-- A session in use has its tokens and its options still, stands among its tokens, as do the
places that were kept, and has no level open. -/
structure Steady (options : Options) (tokens : List Token) (usage : Usage) : Prop where
  /-- The options are those given at the start. -/
  options_eq : usage.session.options = options
  /-- The tokens are those given at the start. -/
  tokens_eq : usage.session.tokens = tokens
  /-- The session stands among its tokens. -/
  position_le : usage.session.position ≤ tokens.length
  /-- No level is open. -/
  depth_eq : usage.depth = 0
  /-- The places that were kept are among the tokens. -/
  saved_le : ∀ checkpoint ∈ usage.saved, checkpoint.position ≤ tokens.length

variable {options : Options} {tokens : List Token} {usage : Usage}

/-- A new session is steady. -/
theorem Steady.new : Steady options tokens (new options tokens) where
  options_eq := rfl
  tokens_eq := rfl
  position_le := Nat.zero_le _
  depth_eq := rfl
  saved_le := fun _ kept => absurd kept List.not_mem_nil

/-- A move of the session keeps it steady if it ends among the tokens. -/
theorem Steady.move (steady : Steady options tokens usage) {position : Nat}
    (inside : position ≤ tokens.length) :
    Steady options tokens { usage with session := { usage.session with position } } :=
  { steady with position_le := inside }

/-- Reading a program closes the levels that it opens. -/
theorem Steady.parse (steady : Steady options tokens usage) :
    Steady options tokens usage.parse.2 where
  options_eq := steady.options_eq
  tokens_eq := steady.tokens_eq
  position_le := by
    rw [← steady.tokens_eq]
    exact Nat.sub_le _ _
  depth_eq := by
    have advances {scope : Scope} {tokens : List Token} :
        Parser.program.Advances Parser.program 0 scope tokens :=
      Grammar.advances_full_self.program (Nat.le_refl _)
    exact (advances.closed _).trans steady.depth_eq
  saved_le := steady.saved_le

/-- As no level is open, a program is read in full room, as the session by itself reads it. -/
theorem Steady.parse_eq (steady : Steady options tokens usage) :
    usage.parse = (usage.session.parse.1, { usage with session := usage.session.parse.2 }) := by
  have closed := steady.parse.depth_eq.trans steady.depth_eq.symm
  obtain ⟨session, depth, saved⟩ := usage
  obtain rfl : depth = 0 := steady.depth_eq
  refine Prod.ext rfl ?_
  change ({ session := _, depth := _, saved } : Usage) = { session := _, depth := 0, saved }
  exact congrArg (fun depth : Nat => ({ session := _, depth, saved } : Usage)) closed

/-- Passing the current token keeps a session steady. -/
theorem Steady.next (steady : Steady options tokens usage) :
    Steady options tokens (usage.serve .next) := by
  cases ahead : usage.session.current? with
  | none =>
    rw [serve, Session.next, ahead]
    exact steady
  | some token =>
    have inside : usage.session.position < usage.session.tokens.length :=
      (List.getElem?_eq_some_iff.mp ahead).1
    rw [steady.tokens_eq] at inside
    rw [serve, Session.next, ahead]
    exact steady.move inside

/-- Keeping the current place keeps a session steady. -/
theorem Steady.checkpoint (steady : Steady options tokens usage) :
    Steady options tokens (usage.serve .checkpoint) where
  options_eq := steady.options_eq
  tokens_eq := steady.tokens_eq
  position_le := steady.position_le
  depth_eq := steady.depth_eq
  saved_le := by
    intro checkpoint kept
    rcases List.mem_append.mp kept with kept | kept
    · exact steady.saved_le checkpoint kept
    · rw [List.mem_singleton.mp kept]
      exact steady.position_le

/-- A place that was kept is returned to. -/
theorem serve_restore {index : Nat} {checkpoint : Checkpoint}
    (kept : usage.saved[index]? = some checkpoint) :
    usage.serve (.restore index) = { usage with session := usage.session.restore checkpoint } := by
  rw [serve, kept]

/-- Where no place was kept as the given one, nothing happens. -/
theorem serve_restore_none {index : Nat} (missing : usage.saved[index]? = none) :
    usage.serve (.restore index) = usage := by
  rw [serve, missing]

/-- Returning to a place that was kept keeps a session steady. -/
theorem Steady.restore (steady : Steady options tokens usage) (index : Nat) :
    Steady options tokens (usage.serve (.restore index)) := by
  cases kept : usage.saved[index]? with
  | none =>
    rw [serve_restore_none kept]
    exact steady
  | some checkpoint =>
    rw [serve_restore kept]
    exact steady.move (steady.saved_le checkpoint (List.mem_of_getElem? kept))

/-- Whatever is asked, a session stays steady. -/
theorem Steady.serve (steady : Steady options tokens usage) (request : Session.Request) :
    Steady options tokens (usage.serve request) := by
  cases request with
  | next => exact steady.next
  | skip count =>
    refine steady.move ?_
    rw [← steady.tokens_eq]
    exact Nat.min_le_right _ _
  | checkpoint => exact steady.checkpoint
  | restore index => exact steady.restore index
  | parse => exact steady.parse

/-- However a session is used, it stays steady. -/
theorem Steady.serveAll (steady : Steady options tokens usage) (requests : List Session.Request) :
    Steady options tokens (usage.serveAll requests) := by
  induction requests generalizing usage with
  | nil => exact steady
  | cons request requests ih => exact ih (steady.serve request)

/-- A place that was kept stays so. -/
theorem saved_serve {index : Nat} {checkpoint : Checkpoint}
    (kept : usage.saved[index]? = some checkpoint) (request : Session.Request) :
    (usage.serve request).saved[index]? = some checkpoint := by
  cases request with
  | next | skip _ | parse => exact kept
  | checkpoint =>
    have listed : index < usage.saved.length := (List.getElem?_eq_some_iff.mp kept).1
    exact (List.getElem?_append_left listed).trans kept
  | restore other =>
    cases found : usage.saved[other]? with
    | none => rwa [serve_restore_none found]
    | some place => rwa [serve_restore found]

/-- A place that was kept stays the given one through all requests. -/
theorem saved_serveAll {index : Nat} {checkpoint : Checkpoint}
    (kept : usage.saved[index]? = some checkpoint) (requests : List Session.Request) :
    (usage.serveAll requests).saved[index]? = some checkpoint := by
  induction requests generalizing usage with
  | nil => exact kept
  | cons request requests ih => exact ih (saved_serve kept request)

/-- Returning to a place that was kept brings back the session as it was there. -/
theorem session_restore (steady : Steady options tokens usage)
    (requests : List Session.Request) :
    (((usage.serve .checkpoint).serveAll requests).serve (.restore usage.saved.length)).session =
      usage.session := by
  have kept : (usage.serve .checkpoint).saved[usage.saved.length]? =
      some usage.session.checkpoint := List.getElem?_concat_length
  have later := (steady.serve .checkpoint).serveAll requests
  rw [serve_restore (saved_serveAll kept requests)]
  simp only [Session.restore, Session.checkpoint, later.options_eq, later.tokens_eq]
  rw [← steady.options_eq, ← steady.tokens_eq]

/-- A session can be used again after anything that was asked of it, readings that failed included.
After each request, it stands among its tokens, has no level open, and has its tokens and its
options unchanged; reading a program from it is then reading it anew. So if a place is kept, and
returned to after further requests, a program is read from there with the same outcome, and up to
the same place, as at the time when the place was kept. -/
theorem parse_after_restore (options : Options) (tokens : List Token)
    (before between : List Session.Request) :
    let usage := (new options tokens).serveAll before
    let returned := ((usage.serve .checkpoint).serveAll between).serve (.restore usage.saved.length)
    usage.session.position ≤ tokens.length ∧ usage.depth = 0 ∧
      usage.session.tokens = tokens ∧ usage.session.options = options ∧
      usage.parse.1 = usage.session.parse.1 ∧ usage.parse.2.session = usage.session.parse.2 ∧
      returned.parse.1 = usage.parse.1 ∧ returned.parse.2.session = usage.parse.2.session := by
  intro usage returned
  have steady : Steady options tokens usage := Steady.new.serveAll before
  have returnedSteady : Steady options tokens returned :=
    ((steady.serve .checkpoint).serveAll between).serve _
  have back : returned.session = usage.session := session_restore steady between
  refine ⟨steady.position_le, steady.depth_eq, steady.tokens_eq, steady.options_eq, ?_, ?_, ?_, ?_⟩
  · rw [steady.parse_eq]
  · rw [steady.parse_eq]
  · rw [returnedSteady.parse_eq, steady.parse_eq, back]
  · rw [returnedSteady.parse_eq, steady.parse_eq, back]

end Usage

end Oreo
