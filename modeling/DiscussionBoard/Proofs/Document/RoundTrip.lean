import DiscussionBoard.Document.Record
import DiscussionBoard.Proofs.Document.IdSpelling
import DiscussionBoard.Proofs.Document.InstantSpelling
import DiscussionBoard.Proofs.Document.Json

/-!
# Records come back

A record may be spelled by many documents, and all of them are read as the record. It is written as
one of them, so reading back what was written gives the record again, from the document and from the
text of it, and it is written the same a second time.
-/

namespace DiscussionBoard

/-- The documents that spell a value, each of which is read as the value. -/
class Spelling (α : Type) [Record α] where
  Spells : Document → α → Prop
  decode_of_spells : ∀ {document : Document} {value : α}, Spells document value →
    Record.decode document = .ok value

namespace Record

open Spelling

variable {α : Type} [Record α]

/-! ### Parts -/

instance : Spelling Bool where
  Spells document value := document = .bool value
  decode_of_spells := by
    rintro _ value rfl
    rfl

instance : Spelling Id where
  Spells document id := ∃ text, document = .text text ∧ id.Spells text.toList
  decode_of_spells := by
    rintro _ id ⟨text, rfl, hspells⟩
    have hread : Id.ofString? text = some id := Id.ofChars?_of_spells hspells
    simp only [decode, hread]

instance : Spelling Instant where
  Spells document instant := ∃ text, document = .text text ∧ instant.Spells text.toList
  decode_of_spells := by
    rintro _ instant ⟨text, rfl, hspells⟩
    simp only [decode, Instant.ofRelaxedString?_of_spells hspells]

instance [Spelling α] : Spelling (Option α) where
  Spells document
    | some value => document ≠ .null ∧ Spells document value
    | none => document = .null
  decode_of_spells := by
    intro document value hspells
    cases value with
    | none =>
        cases hspells
        rfl
    | some value =>
        obtain ⟨hnull, hspells⟩ := hspells
        have hdecode := decode_of_spells hspells
        cases document with
        | null => exact (hnull rfl).elim
        | bool | int | float | text | list | table =>
            exact congrArg (Except.map some) hdecode

/-- A named value is spelled by its name, or by a table that gives the name alone. -/
def SpellsNamed (name : α → String) (document : Document) (value : α) : Prop :=
  document = .text (name value) ∨ document = .table [(name value, .null)]

omit [Record α] in
theorem decodeNamed_of_spells {all : List α} {name : α → String} {value : α}
    (hmem : value ∈ all) (hnames : ∀ other ∈ all, name other = name value → other = value)
    {document : Document} (hspells : SpellsNamed name document value) :
    decodeNamed all name document = .ok value := by
  have hfind : all.find? (fun other => name other = name value) = some value := by
    cases hfound : all.find? (fun other => name other = name value) with
    | none =>
        have hnone := List.find?_eq_none.mp hfound value hmem
        simp at hnone
    | some other =>
        have hsame : name other = name value := by simpa using List.find?_some hfound
        rw [hnames other (List.mem_of_find?_eq_some hfound) hsame]
  rcases hspells with rfl | rfl
  · simp only [decodeNamed, hfind]
  · simp only [decodeNamed, hfind]
    rfl

instance : Spelling ForumKind where
  Spells := SpellsNamed ForumKind.name
  decode_of_spells {_ kind} := by
    apply decodeNamed_of_spells
    · cases kind <;> decide
    · cases kind <;> decide

instance : Spelling SubscriptionMode where
  Spells := SpellsNamed SubscriptionMode.name
  decode_of_spells {_ mode} := by
    apply decodeNamed_of_spells
    · cases mode <;> decide
    · cases mode <;> decide

instance : Spelling GroupMode where
  Spells := SpellsNamed GroupMode.name
  decode_of_spells {_ mode} := by
    apply decodeNamed_of_spells
    · cases mode <;> decide
    · cases mode <;> decide

instance : Spelling Subscription.Preference where
  Spells := SpellsNamed Subscription.Preference.name
  decode_of_spells {_ preference} := by
    apply decodeNamed_of_spells
    · cases preference <;> decide
    · cases preference <;> decide

/-! ### Tables -/

/-- A table gives a part under its name. -/
def Holds [Spelling α] (fields : List (String × Document)) (name : String) (value : α) : Prop :=
  ∃ document, Document.lookup name fields = some document ∧ Spells document value

/-- A part that may be missing, which is the same as a null. -/
def HoldsOptional [Spelling α] (fields : List (String × Document)) (name : String)
    (value : Option α) : Prop :=
  Document.lookup name fields = none ∧ value = none ∨ Holds fields name value

section Members

variable [Spelling α] {fields : List (String × Document)} {name : String}

theorem member?_of_holds {value : α} (hholds : Holds fields name value) :
    member? fields name = .ok (some value) := by
  obtain ⟨document, hlookup, hspells⟩ := hholds
  simp only [member?, hlookup, decode_of_spells hspells]
  rfl

theorem member?_of_holdsOptional {value : Option α} (hholds : HoldsOptional fields name value) :
    ∃ found : Option (Option α), member? fields name = .ok found ∧ found.join = value := by
  rcases hholds with ⟨hlookup, rfl⟩ | hholds
  · refine ⟨none, ?_, rfl⟩
    simp only [member?, hlookup]
  · exact ⟨some value, member?_of_holds hholds, rfl⟩

end Members

instance : Spelling Forum where
  Spells document forum := ∃ fields, document = .table fields ∧
    Holds fields "id" forum.id ∧ Holds fields "course_id" forum.courseId ∧
    Holds fields "kind" forum.kind ∧ Holds fields "subscription_mode" forum.subscriptionMode ∧
    Holds fields "group_mode" forum.groupMode ∧ Holds fields "timed_posts" forum.timedPosts
  decode_of_spells := by
    rintro _ forum ⟨fields, rfl, hid, hcourse, hkind, hmode, hgroup, htimed⟩
    show decodeForumFields fields = .ok forum
    rw [decodeForumFields, member?_of_holds hid, member?_of_holds hcourse, member?_of_holds hkind,
      member?_of_holds hmode, member?_of_holds hgroup, member?_of_holds htimed]
    rfl

instance : Spelling Subscription.Following where
  Spells document following := ∃ fields, document = .table fields ∧
    Holds fields "user_id" following.userId ∧ Holds fields "forum_id" following.forumId
  decode_of_spells := by
    rintro _ following ⟨fields, rfl, huser, hforum⟩
    show decodeFollowingFields fields = .ok following
    rw [decodeFollowingFields, member?_of_holds huser, member?_of_holds hforum]
    rfl

instance : Spelling Subscription.Override where
  Spells document override := ∃ fields, document = .table fields ∧
    Holds fields "user_id" override.userId ∧ Holds fields "forum_id" override.forumId ∧
    Holds fields "discussion_id" override.discussionId ∧
    Holds fields "preference" override.preference ∧ Holds fields "updated_at" override.updatedAt
  decode_of_spells := by
    rintro _ override ⟨fields, rfl, huser, hforum, hdiscussion, hpreference, hupdated⟩
    show decodeOverrideFields fields = .ok override
    rw [decodeOverrideFields, member?_of_holds huser, member?_of_holds hforum,
      member?_of_holds hdiscussion, member?_of_holds hpreference, member?_of_holds hupdated]
    rfl

instance : Spelling Discussion where
  Spells document discussion := ∃ fields, document = .table fields ∧
    Holds fields "id" discussion.id ∧ Holds fields "forum_id" discussion.forumId ∧
    Holds fields "user_id" discussion.userId ∧ HoldsOptional fields "group_id" discussion.groupId ∧
    Holds fields "pinned" discussion.pinned ∧
    Holds fields "time_modified" discussion.timeModified ∧
    HoldsOptional fields "time_start" discussion.timeStart ∧
    HoldsOptional fields "time_end" discussion.timeEnd ∧
    Holds fields "first_post_created" discussion.firstPostCreated
  decode_of_spells := by
    rintro _ discussion
      ⟨fields, rfl, hid, hforum, huser, hgroup, hpinned, hmodified, hstart, hend, hcreated⟩
    obtain ⟨group, hgroup, hgroupJoin⟩ := member?_of_holdsOptional hgroup
    obtain ⟨first, hstart, hstartJoin⟩ := member?_of_holdsOptional hstart
    obtain ⟨last, hend, hendJoin⟩ := member?_of_holdsOptional hend
    show decodeDiscussionFields fields = .ok discussion
    rw [decodeDiscussionFields, member?_of_holds hid, member?_of_holds hforum,
      member?_of_holds huser, hgroup, member?_of_holds hpinned, member?_of_holds hmodified, hstart,
      hend, member?_of_holds hcreated]
    cases discussion
    cases hgroupJoin
    cases hstartJoin
    cases hendJoin
    rfl

/-! ### Writing -/

theorem spells_id (id : Id) : Spells (encode id) id := by
  refine ⟨id.toString, rfl, ?_⟩
  rw [Id.toString, String.toList_ofList]
  exact id.spells_toChars

theorem spells_instant {instant : Instant} (husual : instant.IsUsual) :
    Spells (encode instant) instant := by
  refine ⟨instant.toString, rfl, ?_⟩
  rw [Instant.toString, String.toList_ofList]
  exact Instant.spells_toChars husual

section Fields

variable {fields : List (String × Document)} {name : String}

theorem holds_encode [Spelling α] {value : α}
    (hlookup : Document.lookup name fields = some (encode value))
    (hspells : Spells (encode value) value) : Holds fields name value :=
  ⟨encode value, hlookup, hspells⟩

theorem holdsOptional_id {id : Option Id}
    (hlookup : Document.lookup name fields = some (encode id)) : HoldsOptional fields name id := by
  refine .inr (holds_encode hlookup ?_)
  cases id with
  | none => rfl
  | some id => exact ⟨nofun, spells_id id⟩

theorem holdsOptional_instant {instant : Option Instant}
    (hlookup : Document.lookup name fields = some (encode instant))
    (husual : ∀ moment, instant = some moment → moment.IsUsual) :
    HoldsOptional fields name instant := by
  refine .inr (holds_encode hlookup ?_)
  cases instant with
  | none => rfl
  | some moment => exact ⟨nofun, spells_instant (husual moment rfl)⟩

end Fields

/-- All times of a discussion lie in the years 0 to 9999 outside every leap second. -/
structure HasUsualTimes (discussion : Discussion) : Prop where
  modified : discussion.timeModified.IsUsual
  start : ∀ moment, discussion.timeStart = some moment → moment.IsUsual
  finish : ∀ moment, discussion.timeEnd = some moment → moment.IsUsual
  created : discussion.firstPostCreated.IsUsual

theorem spells_forum (forum : Forum) : Spells (encode forum) forum :=
  ⟨_, rfl, holds_encode rfl (spells_id _), holds_encode rfl (spells_id _),
    holds_encode rfl (.inl rfl), holds_encode rfl (.inl rfl), holds_encode rfl (.inl rfl),
    holds_encode rfl rfl⟩

theorem spells_following (following : Subscription.Following) :
    Spells (encode following) following :=
  ⟨_, rfl, holds_encode rfl (spells_id _), holds_encode rfl (spells_id _)⟩

theorem spells_override {override : Subscription.Override} (husual : override.updatedAt.IsUsual) :
    Spells (encode override) override :=
  ⟨_, rfl, holds_encode rfl (spells_id _), holds_encode rfl (spells_id _),
    holds_encode rfl (spells_id _), holds_encode rfl (.inl rfl),
    holds_encode rfl (spells_instant husual)⟩

theorem spells_discussion {discussion : Discussion} (husual : HasUsualTimes discussion) :
    Spells (encode discussion) discussion :=
  ⟨_, rfl, holds_encode rfl (spells_id _), holds_encode rfl (spells_id _),
    holds_encode rfl (spells_id _), holdsOptional_id rfl, holds_encode rfl rfl,
    holds_encode rfl (spells_instant husual.modified), holdsOptional_instant rfl husual.start,
    holdsOptional_instant rfl husual.finish, holds_encode rfl (spells_instant husual.created)⟩

theorem isScalar_encode_id (id : Option Id) : (encode id).IsScalar := by
  cases id <;> trivial

theorem isScalar_encode_instant (instant : Option Instant) : (encode instant).IsScalar := by
  cases instant <;> trivial

theorem isFlat_forum (forum : Forum) : (encode forum).IsFlat := by
  refine ⟨by simp, ?_⟩
  simp only [List.forall_mem_cons, List.not_mem_nil]
  exact ⟨trivial, trivial, trivial, trivial, trivial, trivial, nofun⟩

theorem isFlat_following (following : Subscription.Following) : (encode following).IsFlat := by
  refine ⟨by simp, ?_⟩
  simp only [List.forall_mem_cons, List.not_mem_nil]
  exact ⟨trivial, trivial, nofun⟩

theorem isFlat_override (override : Subscription.Override) : (encode override).IsFlat := by
  refine ⟨by simp, ?_⟩
  simp only [List.forall_mem_cons, List.not_mem_nil]
  exact ⟨trivial, trivial, trivial, trivial, trivial, nofun⟩

theorem isFlat_discussion (discussion : Discussion) : (encode discussion).IsFlat := by
  refine ⟨by simp, ?_⟩
  simp only [List.forall_mem_cons, List.not_mem_nil]
  exact ⟨trivial, trivial, trivial, isScalar_encode_id _, trivial, trivial,
    isScalar_encode_instant _, isScalar_encode_instant _, trivial, nofun⟩

/-! ### There and back -/

/-- A value comes back from its document and from its text. So does every value that was read from
a text, and it is written a second time as it was the first time. -/
structure RoundTrips [Spelling α] (Usual : α → Prop) : Prop where
  spelled : ∀ (document : Document) (value : α), Spells document value → decode document = .ok value
  document : ∀ value : α, Usual value → decode (encode value) = .ok value
  text : ∀ value : α, Usual value →
    (Document.Json.read? (Document.Json.write (encode value))).map decode = some (.ok value)
  again : ∀ (text : String) (value : α),
    (Document.Json.read? text).map decode = some (.ok value) → Usual value →
    ∃ again : α, (Document.Json.read? (Document.Json.write (encode value))).map decode =
        some (.ok again) ∧
      again = value ∧
      Document.Json.write (encode again) = Document.Json.write (encode value)

theorem roundTrips_of_spells [Spelling α] {Usual : α → Prop}
    (hspells : ∀ value : α, Usual value → Spells (encode value) value)
    (hflat : ∀ value : α, (encode value).IsFlat) : RoundTrips Usual := by
  have hdocument : ∀ value : α, Usual value → decode (encode value) = .ok value :=
    fun value husual => decode_of_spells (hspells value husual)
  have htext : ∀ value : α, Usual value →
      (Document.Json.read? (Document.Json.write (encode value))).map decode = some (.ok value) := by
    intro value husual
    rw [Document.Json.read?_write (hflat value), Option.map_some, hdocument value husual]
  exact
    { spelled := fun _ _ => decode_of_spells
      document := hdocument
      text := htext
      again := fun _ value _ husual => ⟨value, htext value husual, rfl, rfl⟩ }

/-- Forums, discussions, followings and overrides, and all named values in them, come back from
their documents and texts, where their times lie in the years 0 to 9999 outside every leap second. -/
theorem records_round_trip :
    RoundTrips (fun _ : ForumKind => True) ∧ RoundTrips (fun _ : SubscriptionMode => True) ∧
    RoundTrips (fun _ : GroupMode => True) ∧ RoundTrips (fun _ : Subscription.Preference => True) ∧
    RoundTrips (fun _ : Forum => True) ∧ RoundTrips (fun _ : Subscription.Following => True) ∧
    RoundTrips HasUsualTimes ∧
    RoundTrips fun override : Subscription.Override => override.updatedAt.IsUsual := by
  refine ⟨?_, ?_, ?_, ?_, ?_, ?_, ?_, ?_⟩
  · exact roundTrips_of_spells (fun _ _ => .inl rfl) fun _ => trivial
  · exact roundTrips_of_spells (fun _ _ => .inl rfl) fun _ => trivial
  · exact roundTrips_of_spells (fun _ _ => .inl rfl) fun _ => trivial
  · exact roundTrips_of_spells (fun _ _ => .inl rfl) fun _ => trivial
  · exact roundTrips_of_spells (fun forum _ => spells_forum forum) isFlat_forum
  · exact roundTrips_of_spells (fun following _ => spells_following following) isFlat_following
  · exact roundTrips_of_spells (fun _ => spells_discussion) isFlat_discussion
  · exact roundTrips_of_spells (fun _ => spells_override) isFlat_override

/-- A document with ids in three forms, a time on a leap day west of universal time, a group that is
null, a start that is missing, and a field that no discussion has. -/
def mixedDocument : Document :=
  .table [("id", .text "\x7b67E55044-10B1-426F-9247-BB680E5FE0C8\x7d"),
    ("forum_id", .text "urn:uuid:67e55044-10b1-426f-9247-bb680e5fe0c9"),
    ("user_id", .text "67e5504410b1426f9247bb680e5fe0ca"), ("group_id", .null),
    ("colour", .null), ("pinned", .bool true),
    ("time_modified", .text "2024-02-29 23:30:00.5-01:30"),
    ("time_end", .text "2024-12-31t23:59:59z"),
    ("first_post_created", .text "2024-02-28T22:00:00Z")]

def mixedDiscussion : Discussion where
  id := .ofNat 0x67E5504410B1426F9247BB680E5FE0C8
  forumId := .ofNat 0x67E5504410B1426F9247BB680E5FE0C9
  userId := .ofNat 0x67E5504410B1426F9247BB680E5FE0CA
  groupId := none
  pinned := true
  timeModified := { seconds := 1709254800, nanos := 500000000 }
  timeStart := none
  timeEnd := some (.ofSeconds 1735689599)
  firstPostCreated := .ofSeconds 1709157600

theorem mixedDocument_spells : Spells mixedDocument mixedDiscussion := by
  have hid : mixedDiscussion.id.Spells "\x7b67E55044-10B1-426F-9247-BB680E5FE0C8\x7d".toList := by
    have hchars : "\x7b67E55044-10B1-426F-9247-BB680E5FE0C8\x7d".toList =
        '{' :: (Id.grouped "67E5504410B1426F9247BB680E5FE0C8".toList ++ ['}']) := by decide +kernel
    rw [hchars]
    exact .braced (by decide)
  have hforum : mixedDiscussion.forumId.Spells
      "urn:uuid:67e55044-10b1-426f-9247-bb680e5fe0c9".toList := by
    have hchars : "urn:uuid:67e55044-10b1-426f-9247-bb680e5fe0c9".toList =
        Id.urnLead ++ Id.grouped "67e5504410b1426f9247bb680e5fe0c9".toList := by decide +kernel
    rw [hchars]
    exact .urn (by decide) (by decide)
  have huser : mixedDiscussion.userId.Spells "67e5504410b1426f9247bb680e5fe0ca".toList :=
    .plain (by decide)
  let modified : Instant.Reading :=
    { date := ⟨2024, 2, 29⟩, hour := 23, minute := 30, second := 0, places := 1, fraction := 5,
      zone := .west 1 30, valid := by decide, year_nonneg := by decide, year_le := by decide }
  have hmodified : mixedDiscussion.timeModified.Spells "2024-02-29 23:30:00.5-01:30".toList :=
    .of_reading modified (by decide : ' ' ∈ _) (.west (by decide : '-' ∈ _) 1 30)
      (by decide +kernel) (by decide +kernel)
  let finish : Instant.Reading :=
    { date := ⟨2024, 12, 31⟩, hour := 23, minute := 59, second := 59, places := 0, fraction := 0,
      zone := .universal, valid := by decide, year_nonneg := by decide, year_le := by decide }
  have hfinish : Instant.Spells (.ofSeconds 1735689599) "2024-12-31t23:59:59z".toList :=
    .of_reading finish (by decide : 't' ∈ _) (.universal (by decide : 'z' ∈ _))
      (by decide +kernel) (by decide +kernel)
  let created : Instant.Reading :=
    { date := ⟨2024, 2, 28⟩, hour := 22, minute := 0, second := 0, places := 0, fraction := 0,
      zone := .universal, valid := by decide, year_nonneg := by decide, year_le := by decide }
  have hcreated : mixedDiscussion.firstPostCreated.Spells "2024-02-28T22:00:00Z".toList :=
    .of_reading created (by decide : 'T' ∈ _) (.universal (by decide : 'Z' ∈ _))
      (by decide +kernel) (by decide +kernel)
  exact ⟨_, rfl, ⟨_, rfl, _, rfl, hid⟩, ⟨_, rfl, _, rfl, hforum⟩, ⟨_, rfl, _, rfl, huser⟩,
    .inr ⟨_, rfl, rfl⟩, ⟨_, rfl, rfl⟩, ⟨_, rfl, _, rfl, hmodified⟩, .inl ⟨rfl, rfl⟩,
    .inr ⟨_, rfl, nofun, _, rfl, hfinish⟩, ⟨_, rfl, _, rfl, hcreated⟩⟩

theorem records_round_trip_of_mixed :
    decode mixedDocument = .ok mixedDiscussion ∧
    decode (encode mixedDiscussion) = .ok mixedDiscussion ∧
    ∃ again : Discussion,
      (Document.Json.read? (Document.Json.write (encode mixedDiscussion))).map decode =
        some (.ok again) ∧
      again = mixedDiscussion ∧
      Document.Json.write (encode again) = Document.Json.write (encode mixedDiscussion) := by
  have husual : HasUsualTimes mixedDiscussion :=
    { modified := ⟨by decide, by decide +kernel, by decide +kernel⟩
      start := nofun
      finish := by
        rintro _ ⟨⟩
        exact ⟨by decide, by decide +kernel, by decide +kernel⟩
      created := ⟨by decide, by decide +kernel, by decide +kernel⟩ }
  obtain ⟨-, -, -, -, -, -, htrips, -⟩ := records_round_trip
  exact ⟨htrips.spelled _ _ mixedDocument_spells, htrips.document _ husual,
    htrips.again _ _ (htrips.text _ husual) husual⟩

end Record

end DiscussionBoard
