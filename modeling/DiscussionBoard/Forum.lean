import DiscussionBoard.Fault

/-!
# Forums

A forum belongs to a course and fixes how its discussions are ranked, who may see them and how
much of the stored subscriptions counts.
-/

namespace DiscussionBoard

/-- Only a blog ranks its discussions differently. -/
inductive ForumKind
  | general | single | eachUser | qAndA | news | blog
deriving DecidableEq, Inhabited

namespace ForumKind

def all : List ForumKind :=
  [general, single, eachUser, qAndA, news, blog]

def name : ForumKind → String
  | general => "general"
  | single => "single"
  | eachUser => "eachuser"
  | qAndA => "qanda"
  | news => "news"
  | blog => "blog"

end ForumKind

inductive SubscriptionMode
  /-- Optional, unsubscribed until the user opts in. -/
  | choose
  /-- Everyone is subscribed and cannot opt out. -/
  | forced
  /-- Optional, subscribed on enrolment. -/
  | initial
  /-- Nobody can subscribe. -/
  | disallowed
deriving DecidableEq, Inhabited

namespace SubscriptionMode

def all : List SubscriptionMode :=
  [choose, forced, initial, disallowed]

def name : SubscriptionMode → String
  | choose => "choose"
  | forced => "forced"
  | initial => "initial"
  | disallowed => "disallowed"

/-- The number that stands for the mode in stored forums. -/
def code : SubscriptionMode → Int
  | choose => 0
  | forced => 1
  | initial => 2
  | disallowed => 3

def ofCode (code : Int) : Except Fault SubscriptionMode :=
  match all.find? fun mode => mode.code = code with
  | some mode => .ok mode
  | none => .error (.unknownMode code)

/-- Whether users choose for themselves, so that stored choices count. -/
def isOptional : SubscriptionMode → Bool
  | choose | initial => true
  | forced | disallowed => false

theorem ofCode_code (mode : SubscriptionMode) : ofCode mode.code = .ok mode := by
  cases mode <;> rfl

end SubscriptionMode

inductive GroupMode
  | none | separate | visible
deriving DecidableEq, Inhabited

namespace GroupMode

def all : List GroupMode :=
  [none, separate, visible]

def name : GroupMode → String
  | none => "none"
  | separate => "separate"
  | visible => "visible"

end GroupMode

structure Forum where
  id : Id
  /-- Enrolment in this course makes a user a member of the forum. -/
  courseId : Id
  kind : ForumKind := .general
  subscriptionMode : SubscriptionMode := .choose
  groupMode : GroupMode := .none
  /-- Whether the display windows of discussions are enforced. -/
  timedPosts : Bool := false
deriving DecidableEq

namespace Forum

/-- A blog-like forum ranks discussions by their opening post. -/
def isBlogLike (forum : Forum) : Bool :=
  forum.kind = .blog

end Forum

end DiscussionBoard
