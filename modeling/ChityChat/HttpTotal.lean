import ChityChat.ServerHandleHttp

namespace ChityChat.HttpTotal

open CString JsonC ServerHttp ServerHandleHttp

/-- A message that starts with the token `first` has all the pieces that are used without
a check. -/
structure Complete (first save : Bytes) (table : HeaderTable) : Prop where
  upgrade : table.handled.state.upgradePending = true → (table.get "Upgrade").isSome
  target : ¬ utf8 "HTTP/" <:+: first → ∀ url, (strtok (utf8 " ") save).1 = some url → UrlParses url
  get : table.handled.state.upgradePending = false → first = utf8 "GET" →
    (strtok (utf8 " ") save).1 ≠ none
  post : table.handled.state.upgradePending = false → first = utf8 "POST" →
    (table.get "Upload-Token").isSome

def CompleteRequest (buf : Bytes) : Prop :=
  ∀ header rest, strsplit httpEnd buf = some (header, rest) → header ≠ [] ∧
    ∀ line more first save, strsplit httpNl header = some (line, more) →
      strtok (utf8 " ") line = (some first, save) →
      Complete first save (readHeaders shortLive (headerLines line more))

theorem map_ok_iff {α β : Type} {x : Except Fault α} {f : α → β} :
    (∃ b, x.map f = .ok b) ↔ ∃ a, x = .ok a := by
  cases x <;> simp [Except.map]

theorem serverHandleHttpGet_ok_iff (server : Server) (url : Bytes) :
    (∃ path, serverHandleHttpGet server url = .ok path) ↔ url ≠ [] := by
  rw [serverHandleHttpGet]
  by_cases hnil : url = []
  · subst hnil
    have hchecks : serverHttpUrlChecks [] = true := by decide +kernel
    simp [hchecks, getPath]
  · have hpos : min url.length httpUrlLen ≠ 0 := by
      have := List.length_pos_iff.mpr hnil
      simp [httpUrlLen]
      omega
    obtain ⟨last, hlast⟩ := Nat.exists_eq_add_one_of_ne_zero hpos
    rw [getPath, hlast]
    cases serverHttpUrlChecks url <;> simp [hnil]

theorem serverHandleUserUpload_ok_iff (server : Server) (http : Http) :
    (∃ upload, serverHandleUserUpload server http = .ok upload) ↔
      (httpGetHeader http.nHeaders http.headers "Upload-Token").isSome := by
  rw [serverHandleUserUpload, serverCheckUploadToken]
  cases httpGetHeader http.nHeaders http.headers "Upload-Token" with
  | none => simp
  | some str =>
      simp only [Option.isSome_some, iff_true]
      split_ifs
      · exact ⟨_, rfl⟩
      · cases server.uploadTokens (strtoull str) with
        | none => exact ⟨_, rfl⟩
        | some type =>
            cases type with
            | userPfp => exact ⟨_, rfl⟩
            | msgAttachment =>
                simp only [Option.map_some]
                cases httpGetHeader http.nHeaders http.headers "Attach-Index" with
                | none => exact ⟨_, rfl⟩
                | some index =>
                    by_cases hmax : strtoull index = 2 ^ 64 - 1
                    · exact ⟨.refused, if_pos hmax⟩
                    · exact ⟨.attach (strtoull str) (strtoull index), if_neg hmax⟩

theorem urlStr_eq_nil_iff (http : Http) (url version : Bytes) :
    urlStr http url version = [] ↔ url = [] := by
  rw [urlStr, runOn]
  split
  · rfl
  · rename_i hlen
    have hne : url ≠ [] := by
      rintro rfl
      simp [httpUrlLen] at hlen
    simp [hne]

theorem serverHandleHttp_ok_iff (server : Server) (state : ClientState) (http : Http) :
    (∃ outcome, serverHandleHttp server state http = .ok outcome) ↔
      (state.upgradePending = false → ∀ method url version,
        http.message = .req method url version → (method = utf8 "GET" → url ≠ []) ∧
          (method = utf8 "POST" →
            (httpGetHeader http.nHeaders http.headers "Upload-Token").isSome)) := by
  have hgp : utf8 "POST" ≠ utf8 "GET" := by decide +kernel
  rw [serverHandleHttp]
  cases state.upgradePending with
  | true => simp
  | false =>
      cases http.message with
      | resp version code msg => simp
      | req method url version =>
          simp only [Bool.false_eq_true, if_false, forall_const, Message.req.injEq]
          by_cases hget : method = utf8 "GET"
          · rw [if_pos hget, map_ok_iff, serverHandleHttpGet_ok_iff, ne_eq, urlStr_eq_nil_iff]
            subst hget
            constructor
            · rintro hne _ _ _ ⟨rfl, rfl, -⟩
              exact ⟨fun _ => hne, fun hpost => absurd hpost.symm hgp⟩
            · exact fun h => (h _ _ _ ⟨rfl, rfl, rfl⟩).1 rfl
          · rw [if_neg hget]
            by_cases hpost : method = utf8 "POST"
            · rw [if_pos hpost, map_ok_iff, serverHandleUserUpload_ok_iff]
              constructor
              · rintro hsome _ _ _ ⟨rfl, -, -⟩
                exact ⟨fun h => absurd h hget, fun _ => hsome⟩
              · exact fun h => (h _ _ _ ⟨rfl, rfl, rfl⟩).2 hpost
            · rw [if_neg hpost]
              constructor
              · rintro - _ _ _ ⟨rfl, -, -⟩
                exact ⟨fun h => absurd h hget, fun h => absurd h hpost⟩
              · exact fun _ => ⟨_, rfl⟩

theorem take_eq_short {s t : Bytes} {n : Nat} (hn : t.length < n) : s.take n = t ↔ s = t := by
  constructor
  · intro h
    have hlen := congrArg List.length h
    rw [List.length_take] at hlen
    rw [← h, List.take_of_length_le (by omega)]
  · rintro rfl
    exact List.take_of_length_le hn.le

theorem parseUrl_path {url path : Bytes} {params : List HttpHeader}
    (h : parseUrl url = .ok (path, params)) : path ≠ [] := by
  rw [parseUrl] at h
  cases hs : strtok (utf8 "?") url with
  | mk first paramsLine =>
      simp only [hs] at h
      cases hp : (strtokAll (utf8 "&") httpMaxParams paramsLine).mapM parseParam with
      | error fault => simp [hp] at h
      | ok params' =>
          cases first with
          | none => simp [hp] at h
          | some first =>
              simp only [hp, Except.ok.injEq, Prod.mk.injEq] at h
              rw [← h.1]
              simp [httpUrlLen, strtok_ne_nil hs]

theorem parseMessage_spec {line first save : Bytes} {message : Message} {params : List HttpHeader}
    (hfirst : strtok (utf8 " ") line = (some first, save))
    (h : parseMessage line = .ok (some (message, params))) :
    (utf8 "HTTP/" <:+: first ∧ ∃ version code msg, message = .resp version code msg) ∨
      ¬ utf8 "HTTP/" <:+: first ∧ ∃ path version, message = .req (first.take 16) path version ∧
        (path ≠ [] ↔ (strtok (utf8 " ") save).1 ≠ none) := by
  rw [parseMessage, hfirst] at h
  by_cases hresp : utf8 "HTTP/" <:+: first
  · simp only [if_pos hresp, Except.ok.injEq, Option.some.injEq, Prod.mk.injEq] at h
    exact .inl ⟨hresp, _, _, _, h.1.symm⟩
  · refine .inr ⟨hresp, ?_⟩
    simp only [if_neg hresp] at h
    cases hs : (strtok (utf8 " ") save).1 with
    | none =>
        simp only [hs, Except.ok.injEq, Option.some.injEq, Prod.mk.injEq] at h
        exact ⟨[], _, h.1.symm, by simp⟩
    | some url =>
        simp only [hs] at h
        cases hu : parseUrl url with
        | error fault => simp [hu] at h
        | ok r =>
            obtain ⟨path, params'⟩ := r
            simp only [hu, Except.ok.injEq, Option.some.injEq, Prod.mk.injEq] at h
            exact ⟨path, _, h.1.symm, by simp [parseUrl_path hu]⟩

theorem handleUpgrade_pending {table : HeaderTable} {state : ClientState}
    (h : handleUpgrade table = .ok state) :
    state.upgradePending = table.handled.state.upgradePending := by
  rw [handleUpgrade] at h
  by_cases hp : table.handled.state.upgradePending = true
  · rw [if_pos hp] at h
    cases hu : table.get "Upgrade" with
    | none => simp [hu] at h
    | some val =>
        simp only [hu, Except.ok.injEq] at h
        rw [← h, handleHttpUpgrade]
        split <;> rfl
  · rw [if_neg hp, Except.ok.injEq] at h
    rw [h]

theorem complete_iff {line first save : Bytes}
    (hfirst : strtok (utf8 " ") line = (some first, save))
    (server : Server) (table : HeaderTable) (body : Body) (actual : Nat) :
    (∃ message params state outcome, parseMessage line = .ok (some (message, params)) ∧
      handleUpgrade table = .ok state ∧
      serverHandleHttp server state (finish ⟨message, params, table⟩ body actual) = .ok outcome) ↔
    Complete first save table := by
  have hget : (utf8 "GET").length < 16 := by decide +kernel
  have hpost : (utf8 "POST").length < 16 := by decide +kernel
  constructor
  · rintro ⟨message, params, state, outcome, hm, hu, ho⟩
    have hhandled := (serverHandleHttp_ok_iff ..).mp ⟨outcome, ho⟩
    rw [handleUpgrade_pending hu] at hhandled
    refine ⟨(handleUpgrade_ok table).mp ⟨state, hu⟩, ?_, ?_, ?_⟩
    · intro hreq
      exact (parseMessage_req hfirst hreq).mp ⟨_, hm⟩
    · rintro hp rfl
      rcases parseMessage_spec hfirst hm with ⟨hresp, -⟩ | ⟨-, path, version, rfl, hpath⟩
      · exact absurd hresp (by decide +kernel)
      · exact hpath.mp ((hhandled hp _ _ _ rfl).1 ((take_eq_short hget).mpr rfl))
    · rintro hp rfl
      rcases parseMessage_spec hfirst hm with ⟨hresp, -⟩ | ⟨-, path, version, rfl, -⟩
      · exact absurd hresp (by decide +kernel)
      · exact (hhandled hp _ _ _ rfl).2 ((take_eq_short hpost).mpr rfl)
  · intro hc
    obtain ⟨state, hu⟩ := (handleUpgrade_ok table).mpr hc.upgrade
    have hmessage : ∃ r, parseMessage line = .ok (some r) := by
      by_cases hresp : utf8 "HTTP/" <:+: first
      · exact ⟨_, by rw [parseMessage, hfirst]; exact if_pos hresp⟩
      · exact (parseMessage_req hfirst hresp).mpr (hc.target hresp)
    obtain ⟨⟨message, params⟩, hm⟩ := hmessage
    have hhandled : ∃ outcome, serverHandleHttp server state
        (finish ⟨message, params, table⟩ body actual) = .ok outcome := by
      rw [serverHandleHttp_ok_iff, handleUpgrade_pending hu]
      rintro hp method url version (rfl : message = _)
      rcases parseMessage_spec hfirst hm with ⟨-, _, _, _, he⟩ | ⟨-, path, version', he, hpath⟩
      · cases he
      · rw [Message.req.injEq] at he
        rw [he.1, he.2.1, take_eq_short hget, take_eq_short hpost, hpath]
        exact ⟨hc.get hp, hc.post hp⟩
    obtain ⟨outcome, ho⟩ := hhandled
    exact ⟨message, params, state, outcome, hm, hu, ho⟩

theorem zero_notMem_strsplit {delm str token : Bytes} {rest : Option Bytes}
    (h : strsplit delm str = some (token, rest)) : 0 ∉ token := by
  rw [strsplit] at h
  cases hs : strstr delm (cstr str) with
  | none =>
      simp only [hs] at h
      split at h
      · simp at h
      · rw [Option.some.injEq, Prod.mk.injEq] at h
        exact h.1 ▸ zero_notMem_cstr str
  | some i =>
      simp only [hs, Option.some.injEq, Prod.mk.injEq] at h
      have hi := (strstr_spec hs).2
      intro hz
      rw [← h.1, ← cstr_append_drop str, List.take_append_of_le_length hi] at hz
      exact zero_notMem_cstr str (List.mem_of_mem_take hz)

theorem strsplit_nl_eq_none {header : Bytes} (h : 0 ∉ header) :
    strsplit httpNl header = none ↔ header = [] := by
  rw [strsplit, cstr_eq_self h]
  cases hs : strstr httpNl header with
  | none => simp
  | some i =>
      have hne : header ≠ [] := by
        rintro rfl
        simp [strstr, httpNl] at hs
      simp [hne]

theorem parseMessage_ne_none {line first save : Bytes}
    (hfirst : strtok (utf8 " ") line = (some first, save)) : parseMessage line ≠ .ok none := by
  rw [parseMessage, hfirst]
  by_cases hresp : utf8 "HTTP/" <:+: first
  · simp [hresp]
  · simp only [if_neg hresp]
    cases (strtok (utf8 " ") save).1 with
    | none => simp
    | some url => cases hu : parseUrl url <;> simp [hu]

theorem serveFresh_message {server : Server} {buf header line first save : Bytes}
    {rest more : Option Bytes} (hsplit : strsplit httpEnd buf = some (header, rest))
    (hline : strsplit httpNl header = some (line, more))
    (hfirst : strtok (utf8 " ") line = (some first, save)) :
    (∃ outcome, serveFresh server buf = .ok outcome) ↔
      Complete first save (readHeaders shortLive (headerLines line more)) := by
  rw [← complete_iff hfirst server _ (parseBody rest)
    (actualBodyLen (parseBody rest) buf.length (headerLen header)), serveFresh, parseHttp, hsplit]
  simp only [parseHead, hline]
  cases hm : parseMessage line with
  | error fault => simp
  | ok m =>
      cases m with
      | none => exact absurd hm (parseMessage_ne_none hfirst)
      | some m =>
          obtain ⟨message, params⟩ := m
          cases hu : handleUpgrade (readHeaders shortLive (headerLines line more)) with
          | error fault => simp [hu]
          | ok state => simp [hu]

/-- A request is handled without a fault if and only if its header block has a first line, a
message that asks for an upgrade has an `Upgrade` header, the target of a request has a path and
keys, a `GET` has a target and a `POST` has an `Upload-Token` header. -/
theorem serveFresh_ok_iff (server : Server) (buf : Bytes) :
    (∃ outcome, serveFresh server buf = .ok outcome) ↔ CompleteRequest buf := by
  cases hsplit : strsplit httpEnd buf with
  | none => simp [serveFresh, parseHttp, CompleteRequest, hsplit]
  | some r =>
      obtain ⟨header, rest⟩ := r
      have hnil := strsplit_nl_eq_none (zero_notMem_strsplit hsplit)
      cases hline : strsplit httpNl header with
      | none =>
          have hfault : serveFresh server buf = .error .nullSource := by
            simp only [serveFresh, parseHttp, hsplit, parseHead, hline]
          rw [hfault]
          constructor
          · rintro ⟨outcome, ho⟩
            cases ho
          · exact fun hc => absurd (hnil.mp hline) (hc header rest hsplit).1
      | some r =>
          obtain ⟨line, more⟩ := r
          have hne : header ≠ [] := fun he => by simp [hnil.mpr he] at hline
          have hcomplete : CompleteRequest buf ↔ ∀ first save,
              strtok (utf8 " ") line = (some first, save) →
              Complete first save (readHeaders shortLive (headerLines line more)) := by
            constructor
            · intro hc first save
              exact (hc header rest hsplit).2 line more first save hline
            · intro h header' rest' hs
              obtain ⟨rfl, rfl⟩ := Prod.mk.inj (Option.some.inj (hsplit.symm.trans hs))
              refine ⟨hne, ?_⟩
              intro line' more' first save hl
              obtain ⟨rfl, rfl⟩ := Prod.mk.inj (Option.some.inj (hline.symm.trans hl))
              exact h first save
          rw [hcomplete]
          cases hfirst : strtok (utf8 " ") line with
          | mk first save =>
              cases first with
              | none =>
                  have hclosed : serveFresh server buf = .ok (.refused .error) := by
                    simp only [serveFresh, parseHttp, hsplit, parseHead, hline, parseMessage,
                      hfirst]
                  simp [hclosed]
              | some first =>
                  rw [serveFresh_message hsplit hline hfirst]
                  simp

def emptyServer : Server := ⟨utf8 "client/public", fun _ => none, fun _ => none, false⟩

/-- A `POST` without an `Upload-Token` header. -/
theorem bare_post_faults :
    ¬ ∃ outcome, serveFresh emptyServer (utf8 "POST /img/ HTTP/1.1\r\n\r\n") = .ok outcome := by
  rintro ⟨outcome, ho⟩
  have hfault : serveFresh emptyServer (utf8 "POST /img/ HTTP/1.1\r\n\r\n") =
      .error .nullHeader := by
    decide +kernel
  rw [hfault] at ho
  cases ho

end ChityChat.HttpTotal
