import BlockSketch.Proofs.LowerCase
import BlockSketch.Proofs.Records
import BlockSketch.Proofs.Sending

/-! # Bearers of tokens

A header bears a token if it is the word of the scheme in either case, a space and the token, with any
white space around it. No character beyond ASCII is lowered to a character of that word, so lowering
the header first makes no difference. Requests to what is not open are decided by what their header
bears, unless the comparison comes to a text beyond ASCII.
-/

namespace BlockSketch

namespace Service

open Text

variable {header token given : String} {word rest : List Char}

/-! ## What headers bear -/

/-- The header is the word of the scheme, a space, and the token with any white space around it. -/
def Bears (header given : String) : Prop :=
  ∃ word rest, header.toList = word ++ ' ' :: rest ∧ word.map Char.toLower = "bearer".toList ∧
    strip (String.ofList rest) = given

theorem isPrefixOf_lower_iff {s : List Char} : scheme.isPrefixOf (lower s) = true ↔
    ∃ word rest, s = word ++ ' ' :: rest ∧ word.map Char.toLower = "bearer".toList := by
  have hw : ∀ c ∈ scheme, c.toNat < 128 ∧ c ∉ lowered := by decide
  have hs : scheme = "bearer".toList ++ [' '] := by decide
  have space {c : Char} (h : c.toLower = ' ') : c = ' ' := eq_of_toLower h (by decide)
  rw [List.isPrefixOf_iff_prefix, lower, prefix_lowerAfter_iff hw, hs]
  constructor
  · rintro ⟨t, rest, rfl, ht⟩
    obtain ⟨word, l, rfl, hword, hl⟩ := List.map_eq_append_iff.mp ht
    obtain ⟨c, rfl, hc⟩ := List.map_eq_singleton_iff.mp hl
    rw [space hc]
    exact ⟨word, rest, by simp, hword⟩
  · rintro ⟨word, rest, rfl, hword⟩
    exact ⟨word ++ [' '], rest, by simp, by rw [List.map_append, hword]; rfl⟩

theorem drop_word (h : word.map Char.toLower = "bearer".toList) :
    ((word ++ ' ' :: rest).dropWhile (· != ' ')).drop 1 = rest := by
  have hw : ∀ c ∈ word, (c != ' ') = true := by
    intro c hc
    have hl : c.toLower ∈ "bearer".toList := h ▸ List.mem_map_of_mem hc
    rw [bne_iff_ne]
    rintro rfl
    exact absurd hl (by decide)
  rw [List.dropWhile_append_of_pos hw]
  rfl

/-- What a header bears is not empty, since nothing blank is at the end of the header. -/
theorem strip_rest_ne_empty {s : String} (h : (strip s).toList = word ++ ' ' :: rest) :
    (strip (String.ofList rest)).isEmpty = false := by
  rw [← Bool.not_eq_true]
  intro he
  have hr : trim rest = [] := by
    have ht : strip (String.ofList rest) = "" := String.isEmpty_iff.mp he
    simpa [strip] using ht
  obtain ⟨c, hc⟩ : ∃ c, (' ' :: rest).getLast? = some c := by simp [List.getLast?_cons]
  have hb : isBlank c = true := by
    rcases List.mem_cons.mp (List.mem_of_getLast? hc) with rfl | hm
    · decide
    · exact forall_of_trim_eq_nil hr c hm
  have hl : c ∈ (trim s.toList).getLast? := by
    rw [strip, String.toList_ofList] at h
    rw [h, List.getLast?_append, hc]
    rfl
  rw [getLast?_trim _ c hl] at hb
  cases hb

theorem bearerToken?_strip (s : String) :
    bearerToken? (strip s) = some given ↔ Bears (strip s) given := by
  unfold bearerToken?
  constructor
  · intro h
    split at h
    · next hp =>
      obtain ⟨word, rest, hs, hw⟩ := isPrefixOf_lower_iff.mp hp
      rw [hs, drop_word hw] at h
      dsimp only at h
      split at h
      · cases h
      · exact ⟨word, rest, hs, hw, Option.some.inj h⟩
    · cases h
  · rintro ⟨word, rest, hs, hw, rfl⟩
    have hp : scheme.isPrefixOf (lower (strip s).toList) = true :=
      isPrefixOf_lower_iff.mpr ⟨word, rest, hs, hw⟩
    rw [if_pos hp, hs, drop_word hw]
    dsimp only
    rw [strip_rest_ne_empty hs]
    rfl

/-! ## Verdicts -/

theorem compareTokens_of_ne (hg : isAscii given = true) (ht : isAscii token = true)
    (h : given ≠ token) : compareTokens given token = .denied .mismatch := by
  rw [compareTokens, hg, ht]
  exact if_neg h

theorem compareTokens_of_not_ascii (h : (isAscii given && isAscii token) = false) :
    compareTokens given token = .incomparable := by
  rw [compareTokens, h]
  rfl

theorem verdict_of_bears {s : String} (ht : token.isEmpty = false) (h : Bears (strip s) given) :
    verdict token (strip s) = compareTokens given token := by
  rw [verdict, (bearerToken?_strip s).mpr h, ht]
  rfl

theorem verdict_of_not_bears {s : String} (ht : token.isEmpty = false)
    (h : ∀ given, ¬ Bears (strip s) given) : verdict token (strip s) = .denied .missing := by
  have hn : bearerToken? (strip s) = none := by
    rw [Option.eq_none_iff_forall_ne_some]
    intro given hg
    exact h given ((bearerToken?_strip s).mp hg)
  rw [verdict, hn, ht]
  rfl

theorem Bears.unique {s given' : String} (h : Bears (strip s) given)
    (h' : Bears (strip s) given') : given = given' := by
  have he := (bearerToken?_strip s).mpr h
  rw [(bearerToken?_strip s).mpr h'] at he
  exact (Option.some.inj he).symm

theorem verdict_eq_granted_iff {s : String} (ht : token.isEmpty = false) :
    verdict token (strip s) = .granted ↔ Bears (strip s) token ∧ isAscii token = true := by
  by_cases h : ∃ given, Bears (strip s) given
  · obtain ⟨given, h⟩ := h
    rw [verdict_of_bears ht h, compareTokens_eq_granted_iff]
    constructor
    · rintro ⟨ha, rfl⟩
      exact ⟨h, ha⟩
    · rintro ⟨hb, ha⟩
      obtain rfl := h.unique hb
      exact ⟨ha, rfl⟩
  · rw [verdict_of_not_bears ht fun given hg => h ⟨given, hg⟩]
    exact ⟨nofun, fun hb => absurd ⟨token, hb.1⟩ h⟩

/-! ## Requests -/

section

variable {app app' : App} {e : Endpoint} {r : Request} {body : Option Document} {ending : Ending}
  {t : Task} {board : Board} {now : Instant}

theorem authorise_of_verdict (he : e.isOpen = false) : e.authorise app r =
    match verdict app.token (r.header "Authorization") with
    | .granted => .ok ()
    | .denied reason => .error (.denied reason)
    | .incomparable => .error (.broken incomparableMessage) := by
  rw [Endpoint.authorise, he]
  rfl

theorem authorise_eq_ok_iff (he : e.isOpen = false) :
    e.authorise app r = .ok () ↔ verdict app.token (r.header "Authorization") = .granted := by
  rw [authorise_of_verdict he]
  cases verdict app.token (r.header "Authorization") <;> simp

theorem authorise_of_denied {reason : Denial} (he : e.isOpen = false)
    (h : verdict app.token (r.header "Authorization") = .denied reason) :
    e.authorise app r = .error (.denied reason) := by
  rw [authorise_of_verdict he, h]

theorem authorise_of_incomparable (he : e.isOpen = false)
    (h : verdict app.token (r.header "Authorization") = .incomparable) :
    e.authorise app r = .error (.broken incomparableMessage) := by
  rw [authorise_of_verdict he, h]

theorem accept_of_body_error (h : e.body r = .error ending) : e.accept app r = .error ending := by
  rw [Endpoint.accept, h]
  rfl

theorem accept_of_authorise_error (hb : e.body r = .ok body)
    (ha : e.authorise app r = .error ending) : e.accept app r = .error ending := by
  rw [Endpoint.accept, hb]
  simp only [ha, bind, Except.bind]

theorem accept_congr (h : e.authorise app r = e.authorise app' r) :
    e.accept app r = e.accept app' r := by
  rw [Endpoint.accept, Endpoint.accept, h]

theorem map_ne_ok {α β : Type} {x : Checked α} {f : α → β} {b : β} (hf : ∀ a, f a ≠ b) :
    x.map f ≠ .ok b := by
  intro h
  cases x with
  | ok a => exact hf a (Checked.ok.inj h)
  | flawed flaws => cases h

/-- Only the open endpoint has the task that tells whether there is a token. -/
theorem task_ne_health (he : e.isOpen = false) (h : e.task body = .ok t) : t ≠ .health := by
  rintro rfl
  cases e with
  | health => cases he
  | boards | components | examples => cases h
  | _ => exact map_ne_ok (by simp) h

theorem accept_eq_ok_iff : e.accept app r = .ok t ↔
    ∃ body, e.body r = .ok body ∧ e.authorise app r = .ok () ∧ e.task body = .ok t := by
  constructor
  · intro h
    obtain ⟨body, hb, h⟩ := bind_eq_ok_iff.mp h
    obtain ⟨⟨⟩, ha, h⟩ := bind_eq_ok_iff.mp h
    refine ⟨body, hb, ha, ?_⟩
    split at h
    · next task ht => rw [ht, pure_eq_ok_iff.mp h]
    · cases h
  · rintro ⟨body, hb, ha, ht⟩
    rw [Endpoint.accept, hb]
    simp only [bind, Except.bind, ha, ht]
    rfl

theorem accept_ne_health (he : e.isOpen = false) (h : e.accept app r = .ok t) : t ≠ .health := by
  obtain ⟨_, -, -, ht⟩ := accept_eq_ok_iff.mp h
  exact task_ne_health he ht

theorem ending_congr (ht : t ≠ .health) (token' : String) :
    t.ending ⟨token, board⟩ now = t.ending ⟨token', board⟩ now := by
  cases t with
  | health => exact absurd rfl ht
  | _ => rfl

theorem records_congr (token' : String) :
    t.records ⟨token, board⟩ now = t.records ⟨token', board⟩ now := by
  cases t <;> rfl

theorem handle_of_accept_error (hr : route r.method r.path = .endpoint e)
    (h : e.accept app r = .error ending) : app.handle now r = (ending, []) := by
  rw [App.handle, hr]
  simp only [h]

/-- What is not open is worked on in the same way under any token, once the request is accepted. -/
theorem handle_congr (hr : route r.method r.path = .endpoint e) (he : e.isOpen = false)
    (token' : String)
    (h : e.accept ⟨token, board⟩ r = e.accept ⟨token', board⟩ r) :
    App.handle ⟨token, board⟩ now r = App.handle ⟨token', board⟩ now r := by
  rw [App.handle, App.handle, hr]
  simp only [← h]
  cases ha : e.accept ⟨token, board⟩ r with
  | error ending => rfl
  | ok t =>
    simp only [ending_congr (accept_ne_health he ha) token', records_congr token']

theorem respond_congr {fresh : String} {milliseconds : Nat}
    (h : app.handle now r = app'.handle now r) :
    app.respond now fresh milliseconds r = app'.respond now fresh milliseconds r := by
  rw [App.respond, App.respond, h]

theorem status_of_accept_error {fresh : String} {milliseconds : Nat}
    (hr : route r.method r.path = .endpoint e) (h : e.accept app r = .error ending) :
    (app.respond now fresh milliseconds r).1.status = (ending.sent (r.traceId fresh)).status := by
  rw [App.respond, handle_of_accept_error hr h]

end

/-- Requests to what is not open are decided by what their header bears. A body that cannot be read
has the same answer as without a token. Otherwise the request is let through, to the answer of a
service without a token, exactly if the header bears the token and the token is ASCII; it is refused
with 401 if the header bears nothing, with 403 if it bears something else and both are ASCII, and
fails with 500 if one of them is not. Headers hold whole characters, so the identifier of the request
can be written. -/
theorem respond_bears (token : String) (board : Board) (now : Instant) (fresh : String)
    (milliseconds : Nat) {e : Endpoint} {r : Request} (ht : isBlankText token = false)
    (hr : route r.method r.path = .endpoint e) (he : e.isOpen = false)
    (hw : Json.Whole (r.traceId fresh).toList) :
    let app := App.make (some token) board
    let free := App.make none board
    let bears := Bears (r.header "Authorization")
    let respond (app : App) := app.respond now fresh milliseconds r
    (∀ ending, e.body r = .error ending → respond app = respond free) ∧
    ∀ body, e.body r = .ok body →
      (e.authorise app r = .ok () ↔ bears (strip token) ∧ isAscii (strip token) = true) ∧
      (e.authorise app r = .ok () → respond app = respond free) ∧
      ((∀ given, ¬ bears given) → (respond app).1.status = 401) ∧
      ∀ given, bears given →
        (isAscii given = true → isAscii (strip token) = true → given ≠ strip token →
          (respond app).1.status = 403) ∧
        ((isAscii given && isAscii (strip token)) = false → (respond app).1.status = 500) := by
  intro app free bears respond
  have hn : (strip token).isEmpty = false := isEmpty_strip ht
  have unchecked : e.authorise free r = .ok () :=
    (authorise_eq_ok_iff he).mpr rfl
  have same (h : e.accept app r = e.accept free r) : respond app = respond free :=
    respond_congr (handle_congr hr he _ h)
  have refused {body : Option Document} {ending : Ending} (hb : e.body r = .ok body)
      (ha : e.authorise app r = .error ending) :
      (respond app).1.status = (ending.sent (r.traceId fresh)).status :=
    status_of_accept_error hr (accept_of_authorise_error hb ha)
  constructor
  · intro ending hb
    exact same ((accept_of_body_error hb).trans (accept_of_body_error hb).symm)
  intro body hb
  refine ⟨(authorise_eq_ok_iff he).trans (verdict_eq_granted_iff hn), ?_, ?_, ?_⟩
  · intro ha
    exact same (accept_congr (ha.trans unchecked.symm))
  · intro hm
    rw [refused hb (authorise_of_denied he (verdict_of_not_bears hn hm)), Ending.sent_denied hw]
    rfl
  intro given hg
  constructor
  · intro hga hta hne
    have hv := (verdict_of_bears hn hg).trans (compareTokens_of_ne hga hta hne)
    rw [refused hb (authorise_of_denied he hv), Ending.sent_denied hw]
    rfl
  · intro ha
    have hv := (verdict_of_bears hn hg).trans (compareTokens_of_not_ascii ha)
    rw [refused hb (authorise_of_incomparable he hv)]
    rfl

theorem respond_bears_boards :
    let r : Request :=
      ⟨"GET", "/boards", [("Authorization", " bEARER  s3cret"), ("X-Trace-Id", "t1")], []⟩
    let now : Instant := ⟨⟨2024, 5, 1⟩, 0, 0, 0, 0, none⟩
    (App.make (some "s3cret ") .uno).respond now "t0" 0 r =
        (App.make none .uno).respond now "t0" 0 r ∧
      ((App.make (some "secret") .uno).respond now "t0" 0 r).1.status = 403 := by
  intro r now
  have hr : route r.method r.path = .endpoint .boards := by decide +kernel
  have hw : Json.Whole (r.traceId "t0").toList := by
    unfold Json.Whole
    decide +kernel
  have hb : Bears (r.header "Authorization") "s3cret" :=
    ⟨"bEARER".toList, " s3cret".toList, by decide +kernel, by decide +kernel, by decide +kernel⟩
  have ht : strip "s3cret " = "s3cret" := by decide +kernel
  have decided (token : String) (h : isBlankText token = false) :=
    (respond_bears token .uno now "t0" 0 h hr rfl hw).2 none rfl
  constructor
  · obtain ⟨granted, same, -⟩ := decided "s3cret " (by decide +kernel)
    exact same (granted.mpr (by rw [ht]; exact ⟨hb, by decide +kernel⟩))
  · obtain ⟨-, -, -, other⟩ := decided "secret" (by decide +kernel)
    have hs : strip "secret" = "secret" := by decide +kernel
    obtain ⟨differs, -⟩ := other "s3cret" hb
    rw [hs] at differs
    beta_reduce at differs
    exact differs (by decide +kernel) (by decide +kernel) (by decide +kernel)

/-- A text beyond ASCII is neither let through nor refused. -/
theorem respond_beyond_ascii :
    let r : Request :=
      ⟨"GET", "/boards", [("Authorization", "Bearer sécret"), ("X-Trace-Id", "t1")], []⟩
    Bears (r.header "Authorization") "sécret" ∧ "sécret" ≠ strip "secret" ∧
      ((App.make (some "secret") .uno).respond ⟨⟨2024, 5, 1⟩, 0, 0, 0, 0, none⟩ "t0" 0 r).1.status =
        500 :=
  ⟨⟨"Bearer".toList, "sécret".toList, by decide +kernel, by decide +kernel, by decide +kernel⟩,
    by decide +kernel, by decide +kernel⟩

end Service

end BlockSketch
