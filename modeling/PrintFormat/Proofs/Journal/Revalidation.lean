import PrintFormat.Proofs.Journal.Entry
import PrintFormat.Proofs.Json.Normal

/-!
Lines written again. The validator looks at the texts among the members of a
line, and only then the entry is read, from the fields that it knows; what is
beside them, in which order and how often, is not in the entry. An entry that
came out of a line is as the validator asks (`Entry.accepted_of_checkText`), so
its own line is accepted and gives the entry again (`checkLine_again`), as long
as the numbers in its details are read as they are written.
-/
namespace PrintFormat.Journal

/-! ## Accepted texts -/

theorem checkText_eq_ok_iff {text : String} {e : Entry} :
    checkText text = .ok e ↔ ∃ members, Json.readValue? text = some (.object members) ∧
      complaints members = [] ∧ Entry.ofJson? (.object members) = some e := by
  constructor
  · intro h
    unfold checkText at h
    split at h
    · cases h
    · next members hread =>
      split at h
      · next hcomplaints hentry =>
        cases h
        exact ⟨members, hread, hcomplaints, hentry⟩
      · cases h
      · cases h
    · cases h
  · rintro ⟨members, hread, hcomplaints, hentry⟩
    exact checkText_eq_ok hread hcomplaints hentry

/-- What a text is refused for is never nothing. -/
theorem checkText_error_ne_nil {text : String} {found : List Complaint}
    (h : checkText text = .error found) : found ≠ [] := by
  unfold checkText at h
  split at h
  · cases h
    exact List.cons_ne_nil _ _
  · next members _ =>
    cases hcomplaints : complaints members with
    | nil =>
      rw [hcomplaints] at h
      cases hentry : Entry.ofJson? (.object members) with
      | none =>
        rw [hentry] at h
        cases h
        exact List.cons_ne_nil _ _
      | some e =>
        rw [hentry] at h
        cases h
    | cons complaint rest =>
      rw [hcomplaints] at h
      cases h
      exact List.cons_ne_nil _ _
  · cases h
    exact List.cons_ne_nil _ _

/-- Nothing is wrong with the texts of members without complaints. -/
theorem texts_of_complaints_nil {members : List (Json.Quoted × Json)}
    (h : complaints members = []) :
    (∀ t ∈ memberText? members "trace_id", hasDoubleColon t.toList = true) ∧
      (∀ t ∈ memberText? members "timestamp", isTimestamp t = true) ∧
      ∀ s ∈ memberText? members "sink", s ∈ ["stream", "buffer", "url"] := by
  simp only [complaints, List.append_eq_nil_iff, Option.toList_eq_nil_iff,
    List.filterMap_eq_nil_iff] at h
  obtain ⟨⟨⟨-, hunknown⟩, htrace⟩, htime⟩ := h
  -- a filter that leaves nothing of what is there has refused it
  have refused {o : Option String} {p : String → Bool} {f : String → Complaint}
      (h : (o.filter p).map f = none) : ∀ t ∈ o, p t = false := by
    rw [Option.map_eq_none_iff, Option.filter_eq_none_iff] at h
    exact fun t ht => Bool.eq_false_iff.mpr (h t ht)
  have hsink := refused (hunknown ("sink", ["stream", "buffer", "url"]) (by decide))
  exact ⟨fun t ht => by simpa using refused htrace t ht,
    fun t ht => by simpa using refused htime t ht,
    fun s hs => not_not.mp (of_decide_eq_false (hsink s hs))⟩

/-! ## Entries -/

/-- The text of a member is what reading it as a text gives. -/
theorem memberText?_of_text {ms : List (String × Json)} {field : String} {j : Json} {t : String}
    (hj : ms.lookup field = some j) (ht : j.text? = some t) :
    t ∈ memberText? (ms.map fun m => (some m.1, m.2)) field := by
  rw [memberText?, Entry.member?_spelled, hj]
  exact ht

/-- An entry that came out of a text is as the validator asks. -/
theorem Entry.accepted_of_checkText {text : String} {e : Entry} (h : checkText text = .ok e)
    (hkept : ∀ j ∈ e.details, j.AllNumbers Json.Numeral.IsKept) : e.Accepted := by
  obtain ⟨members, hread, hcomplaints, hentry⟩ := checkText_eq_ok_iff.mp h
  obtain ⟨j, -, hnormal⟩ := Option.bind_eq_some_iff.mp hread
  obtain ⟨depth, ms, hdepth, rfl, -, hvalues⟩ := Json.exists_members_of_normalWithin? hnormal
  obtain rfl : depth = 126 := by
    rw [Json.maxDepth] at hdepth
    omega
  obtain ⟨htraces, htimes, hsinks⟩ := texts_of_complaints_nil hcomplaints
  obtain ⟨r, hr, hreads⟩ := ofJson?_eq_some_iff.mp hentry
  have hfield {field : String} (h : field ∈ requiredFields ++ optionalFields) :
      r.lookup field = ms.lookup field := Json.lookup_of_record? hr h
  obtain ⟨_, htime, htext⟩ := Json.Record.required_eq_some_iff.mp hreads.timestamp
  obtain ⟨_, htrace, htext'⟩ := Json.Record.required_eq_some_iff.mp hreads.traceId
  rw [hfield (by decide)] at htime htrace
  refine ⟨htimes _ (memberText?_of_text htime htext), htraces _ (memberText?_of_text htrace htext'),
    fun s hs => ?_, fun v hv => ?_⟩
  · obtain ⟨_, hlookup, -, htext⟩ :=
      Json.Record.exists_of_optional (hreads.sink.trans (congrArg some hs))
    rw [hfield (by decide)] at hlookup
    exact hsinks s (memberText?_of_text hlookup htext)
  · obtain ⟨_, hlookup, hnull, hvalue⟩ :=
      Json.Record.exists_of_optional (hreads.details.trans (congrArg some hv))
    cases hvalue
    rw [hfield (by decide)] at hlookup
    obtain ⟨_, _, hms, -⟩ := List.lookup_eq_some_iff.mp hlookup
    obtain ⟨_, hvalue⟩ := hvalues ("details", v) (by rw [hms]; simp)
    exact ⟨hnull, Json.normalWithin?_normal hvalue (hkept v hv)⟩

/-! ## Lines -/

/-- The entry of a line that is accepted is read back from its own line, whatever
number that has, if each number in its details is an integer of 64 bits or a
numeral that is written for what it means. What else the line held does not
matter. A line that is refused has at least one problem, and each of them has the
number of the line. -/
theorem checkLine_again (text : String) (number : Nat) :
    (∀ e, checkLine text number = .ok e →
      (∀ j ∈ e.details, j.AllNumbers fun n => n.IsWord ∨ n.IsKept) →
      ∀ other, checkLine e.line other = .ok e) ∧
    ∀ problems, checkLine text number = .error problems →
      problems ≠ [] ∧ ∀ p ∈ problems, p.line = number := by
  cases h : checkText text with
  | ok e =>
    have hline : checkLine text number = .ok e := by
      rw [checkLine, h]
      rfl
    rw [hline]
    refine ⟨?_, fun _ hrefused => (by cases hrefused)⟩
    rintro e ⟨⟩ hkept other
    refine (Entry.accepted_of_checkText h fun j hj => ?_).checkLine_eq other
    exact (hkept j hj).mono fun n hn => hn.elim Json.Numeral.IsWord.isKept id
  | error found =>
    have hline : checkLine text number = .error (found.map fun c => ⟨number, c⟩) := by
      rw [checkLine, h]
      rfl
    rw [hline]
    refine ⟨fun _ haccepted => (by cases haccepted), ?_⟩
    rintro problems ⟨⟩
    refine ⟨mt List.map_eq_nil_iff.mp (checkText_error_ne_nil h), fun p hp => ?_⟩
    obtain ⟨c, -, rfl⟩ := List.mem_map.mp hp
    rfl

/-- A line out of order, with a field that entries do not have, a name that is
there twice, a null and the greatest of the unsigned words: it is accepted, and
so is the line of its entry. A line with little in it is refused for all that is
missing. -/
theorem checkLine_again_unordered :
    let text := "\x7b \"x\":[null], \"event\" :\"e\",\"sink\":null,\"trace_id\":\"r::1\"," ++
      "\"details\":\x7b\"b\":[-1],\"a\":0, \"a\":18446744073709551615\x7d," ++
      "\"level\":\"info\",\"timestamp\":\"2024-02-29T12:00:00Z\"\x7d"
    let e : Entry :=
      { timestamp := "2024-02-29T12:00:00Z"
        traceId := "r::1"
        level := .info
        event := "e"
        details := some (.ofMembers
          [("a", .ofInt 0xFFFFFFFFFFFFFFFF), ("b", .array [.ofInt (-1)])]) }
    let found : List Complaint :=
      [.missing "timestamp", .missing "level", .missing "event", .malformedTraceId "r"]
    (checkLine text 1 = .ok e ∧ checkLine e.line 7 = .ok e) ∧
      checkLine "\x7b\"trace_id\":\"r\"\x7d" 3 = .error (found.map fun c => ⟨3, c⟩) ∧
      ∀ p ∈ found.map fun c => (⟨3, c⟩ : Problem), p.line = 3 := by
  intro text e found
  let details : Json := .ofMembers
    [("a", .ofInt 0xFFFFFFFFFFFFFFFF), ("b", .array [.ofInt (-1)])]
  let members : List (String × Json) :=
    [("details", details), ("event", .ofText "e"), ("level", .ofText "info"), ("sink", .null),
      ("timestamp", .ofText "2024-02-29T12:00:00Z"), ("trace_id", .ofText "r::1"),
      ("x", .array [.null])]
  have hread : Json.readValue? text = some (.ofMembers members) := by
    simp only [text]
    cbv
  have hcomplaints : complaints (members.map fun m => (some m.1, m.2)) = [] := by decide +kernel
  have hline : checkLine text 1 = .ok e := by
    rw [checkLine, checkText_eq_ok hread hcomplaints rfl]
    rfl
  have hkept : details.AllNumbers fun n => n.IsWord ∨ n.IsKept := by
    refine .object fun m hm => ?_
    rcases List.mem_cons.mp hm with rfl | hm
    · exact .number (.inl ⟨0xFFFFFFFFFFFFFFFF, by decide, by decide, rfl⟩)
    · obtain rfl := List.mem_singleton.mp hm
      refine .array fun item hitem => ?_
      obtain rfl := List.mem_singleton.mp hitem
      exact .number (.inl ⟨-1, by decide, by decide, rfl⟩)
  have hrefused : checkLine "\x7b\"trace_id\":\"r\"\x7d" 3 =
      .error (found.map fun c => ⟨3, c⟩) := by
    cbv
  have hagain := (checkLine_again text 1).1 e hline (fun j hj => by cases hj; exact hkept) 7
  exact ⟨⟨hline, hagain⟩, hrefused, ((checkLine_again _ 3).2 _ hrefused).2⟩

end PrintFormat.Journal
