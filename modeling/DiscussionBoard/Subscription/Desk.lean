import DiscussionBoard.Program
import DiscussionBoard.Register
import DiscussionBoard.Subscription.Cache

/-!
# The subscription desk

All that subscription programs work with: the stored rows, the register and the cache, and the
requests that can be made of each. One request is one indivisible step.
-/

namespace DiscussionBoard.Subscription

structure Desk where
  rows : Rows
  register : Register
  cache : Cache

inductive RowRequest
  | follows (user forum : Id)
  | follow (user forum : Id)
  | unfollow (user forum : Id)
  | followersOf (forum : Id)
  | overrideOf (user discussion : Id)
  | putOverride (override : Override)
  | dropOverride (user discussion : Id)
  | overridesOf (user forum : Id)
  | overridesFor (discussion : Id)
  | clearOverrides (user forum : Id)
  | eraseUser (user : Id)
  | eraseForum (forum : Id)
deriving DecidableEq

abbrev RowRequest.Answer : RowRequest → Type
  | follows _ _ | follow _ _ | unfollow _ _ | putOverride _ | dropOverride _ _ => Bool
  | followersOf _ => List Id
  | overrideOf _ _ => Option Override
  | overridesOf _ _ | overridesFor _ => List (Id × Preference)
  | clearOverrides _ _ | eraseUser _ | eraseForum _ => Nat

inductive RegisterRequest
  | allows (user forum : Id)
  | enrolled (course : Id)
deriving DecidableEq

abbrev RegisterRequest.Answer : RegisterRequest → Type
  | allows _ _ => Bool
  | enrolled _ => List Id

inductive CacheRequest
  | isEnabled
  | generation
  | followersOf (forum : Id)
  | overridesOf (user forum : Id)
  | keepFollowers (forum : Id) (users : KeySet Id) (ticket : UInt64)
  | keepOverrides (user forum : Id) (overrides : Table Id Preference) (ticket : UInt64)
  | invalidate (scope : Scope)
  | reset
deriving DecidableEq

abbrev CacheRequest.Answer : CacheRequest → Type
  | isEnabled => Bool
  | generation => UInt64
  | followersOf _ => Option (KeySet Id)
  | overridesOf _ _ => Option (Table Id Preference)
  | keepFollowers _ _ _ | keepOverrides _ _ _ _ | invalidate _ | reset => Unit

inductive Request
  | rows (request : RowRequest)
  | register (request : RegisterRequest)
  | cache (request : CacheRequest)
deriving DecidableEq

abbrev Answer : Request → Type
  | .rows request => request.Answer
  | .register request => request.Answer
  | .cache request => request.Answer

def signature : Signature := ⟨Request, Answer⟩

def Rows.perform : (request : RowRequest) → Rows → request.Answer × Rows
  | .follows user forum, rows => (rows.follows user forum, rows)
  | .follow user forum, rows => rows.follow user forum
  | .unfollow user forum, rows => rows.unfollow user forum
  | .followersOf forum, rows => (rows.followersOf forum, rows)
  | .overrideOf user discussion, rows => (rows.overrideOf user discussion, rows)
  | .putOverride override, rows => rows.putOverride override
  | .dropOverride user discussion, rows => rows.dropOverride user discussion
  | .overridesOf user forum, rows => (rows.overridesOf user forum, rows)
  | .overridesFor discussion, rows => (rows.overridesFor discussion, rows)
  | .clearOverrides user forum, rows => rows.clearOverrides user forum
  | .eraseUser user, rows => rows.eraseUser user
  | .eraseForum forum, rows => rows.eraseForum forum

def answerFromRegister (register : Register) : (request : RegisterRequest) → request.Answer
  | .allows user forum => register.allows user forum
  | .enrolled course => register.enrolled course

def Cache.perform : (request : CacheRequest) → Cache → request.Answer × Cache
  | .isEnabled, cache => (cache.enabled, cache)
  | .generation, cache => (cache.generation, cache)
  | .followersOf forum, cache => (cache.followersOf forum, cache)
  | .overridesOf user forum, cache => (cache.overridesOf user forum, cache)
  | .keepFollowers forum users ticket, cache => ((), cache.keepFollowers forum users ticket)
  | .keepOverrides user forum overrides ticket, cache =>
    ((), cache.keepOverrides user forum overrides ticket)
  | .invalidate scope, cache => ((), cache.invalidate scope)
  | .reset, cache => ((), cache.reset)

/-- Answers one request. The register is only read. -/
def Desk.perform : (request : Request) → Desk → Answer request × Desk
  | .rows request, desk =>
    let (answer, rows) := Rows.perform request desk.rows
    (answer, { desk with rows })
  | .register request, desk => (answerFromRegister desk.register request, desk)
  | .cache request, desk =>
    let (answer, cache) := Cache.perform request desk.cache
    (answer, { desk with cache })

def askRows (request : RowRequest) : Program signature request.Answer :=
  .ask (.rows request) .done

def askRegister (request : RegisterRequest) : Program signature request.Answer :=
  .ask (.register request) .done

def askCache (request : CacheRequest) : Program signature request.Answer :=
  .ask (.cache request) .done

end DiscussionBoard.Subscription
