import ChityChat.ServerHttp

namespace ChityChat.HttpLengths

open CString JsonC ServerHttp

def followingLen (buf : Bytes) : Nat :=
  match strstr httpEnd buf with
  | none => 0
  | some i => buf.length - (i + httpEnd.length)

/-- `buf_len - header_len` does not wrap, and a request that is handled at once has no more body
than the bytes behind the header block. -/
structure LengthsOk (state : ClientState) (buf : Bytes) : Prop where
  noWrap : ∀ header rest, strsplit httpEnd buf = some (header, rest) → parseBody rest ≠ .null →
    headerLen header ≤ buf.length
  bounded : ∀ http state', parseHttp state buf = .ok (some (http, state')) →
    http.missing = false → http.bodyLen ≤ followingLen buf

def declaredLength (state : ClientState) (header : Bytes) : Option Nat :=
  match parseHead state header with
  | .ok (some head) => (handleUpgrade head.table).toOption.map (fun _ => head.table.handled.bodyLen)
  | _ => none

/-- Where a NUL comes before the blank line, the block ends at the NUL, and the four bytes from
there on count as the blank line. -/
structure CutByNul (state : ClientState) (buf : Bytes) : Prop where
  room : headerLen (cstr buf) ≤ buf.length
  declared : ∀ n, declaredLength state (cstr buf) = some n →
    n ≤ followingLen buf ∨ buf.length - headerLen (cstr buf) < n

theorem declaredLength_eq_some {state : ClientState} {header : Bytes} {n : Nat} :
    declaredLength state header = some n ↔
      ∃ head state', parseHead state header = .ok (some head) ∧
        handleUpgrade head.table = .ok state' ∧ head.table.handled.bodyLen = n := by
  rw [declaredLength]
  cases parseHead state header with
  | error fault => simp
  | ok head =>
      cases head with
      | none => simp
      | some head => cases hu : handleUpgrade head.table <;> simp [Except.toOption, hu]

theorem finish_missing {head : Head} {body : Body} {actual : Nat} :
    (finish head body actual).missing = false ↔ head.table.handled.bodyLen ≤ actual := by
  simp only [finish, decide_eq_false_iff_not]
  constructor
  · intro h
    by_contra hlt
    exact h ⟨.inr (by omega), by omega⟩
  · exact fun h hlt => absurd hlt.2 (not_lt.mpr h)

theorem strsplit_of_none {delm str : Bytes} (h : strstr delm (cstr str) = none) :
    strsplit delm str = if cstr str = [] then none else some (cstr str, none) := by
  rw [strsplit, h]

theorem lengthsOk_of_blank {buf : Bytes} (hbuf : buf.length < 2 ^ 64)
    (h : httpEnd <:+: cstr buf) (state : ClientState) : LengthsOk state buf := by
  obtain ⟨i, hi⟩ := Option.ne_none_iff_exists'.mp (mt strstr_eq_none.mp (not_not.mpr h))
  have hbytes : strstr httpEnd buf = some i := by
    rw [← cstr_append_drop buf]
    exact strstr_append hi _
  have hlen : i + httpEnd.length ≤ buf.length := strstr_length hbytes
  have hsplit : strsplit httpEnd buf = some (buf.take i, some (buf.drop (i + httpEnd.length))) := by
    rw [strsplit, hi]
  have hheader : headerLen (buf.take i) = i + httpEnd.length := by
    rw [headerLen, List.length_take, Nat.min_eq_left (by omega)]
  have hactual (body : Body) : actualBodyLen body buf.length (headerLen (buf.take i)) ≤
      buf.length - (i + httpEnd.length) := by
    rw [hheader, actualBodyLen]
    split <;> omega
  constructor
  · intro header rest hs _
    rw [hsplit, Option.some.injEq, Prod.mk.injEq] at hs
    rw [← hs.1, hheader]
    exact hlen
  · intro http state' hp hm
    obtain ⟨header, rest, head, hs, -, -, rfl⟩ := parseHttp_ok_iff.mp hp
    rw [hsplit, Option.some.injEq, Prod.mk.injEq] at hs
    obtain ⟨rfl, rfl⟩ := hs
    rw [followingLen, hbytes]
    exact (finish_missing.mp hm).trans (hactual _)

theorem lengthsOk_of_nil {buf : Bytes} (h : cstr buf = []) (state : ClientState) :
    LengthsOk state buf := by
  have hsplit : strsplit httpEnd buf = none := by
    rw [strsplit_of_none (by rw [h]; rfl), if_pos h]
  constructor
  · intro header rest hs _
    simp [hsplit] at hs
  · intro http state' hp _
    obtain ⟨header, rest, head, hs, -⟩ := parseHttp_ok_iff.mp hp
    simp [hsplit] at hs

theorem lengthsOk_iff_cutByNul {buf : Bytes} (hbuf : buf.length < 2 ^ 64)
    (h : ¬ httpEnd <:+: cstr buf) (hne : cstr buf ≠ []) (state : ClientState) :
    LengthsOk state buf ↔ CutByNul state buf := by
  have hsplit : strsplit httpEnd buf = some (cstr buf, none) := by
    rw [strsplit_of_none (strstr_eq_none.mpr h), if_neg hne]
  have hactual (hle : headerLen (cstr buf) ≤ buf.length) :
      actualBodyLen .start buf.length (headerLen (cstr buf)) =
        buf.length - headerLen (cstr buf) := by
    rw [actualBodyLen, if_neg (by simp)]
    omega
  constructor
  · intro hok
    have hle := hok.noWrap _ _ hsplit (by simp [parseBody])
    refine ⟨hle, ?_⟩
    intro n hn
    obtain ⟨head, state', hh, hu, rfl⟩ := declaredLength_eq_some.mp hn
    by_contra hcon
    push Not at hcon
    have hp := parseHttp_ok_iff.mpr ⟨_, _, head, hsplit, hh, hu, rfl⟩
    have hm : (finish head (parseBody none)
        (actualBodyLen (parseBody none) buf.length (headerLen (cstr buf)))).missing = false :=
      finish_missing.mpr ((hactual hle).symm ▸ hcon.2)
    exact absurd (hok.bounded _ _ hp hm) (not_le.mpr hcon.1)
  · rintro ⟨hle, hdeclared⟩
    constructor
    · intro header rest hs _
      rw [hsplit, Option.some.injEq, Prod.mk.injEq] at hs
      exact hs.1 ▸ hle
    · intro http state' hp hm
      obtain ⟨header, rest, head, hs, hh, hu, rfl⟩ := parseHttp_ok_iff.mp hp
      rw [hsplit, Option.some.injEq, Prod.mk.injEq] at hs
      obtain ⟨rfl, rfl⟩ := hs
      rw [show parseBody none = .start from rfl, hactual hle] at hm
      rcases hdeclared _ (declaredLength_eq_some.mpr ⟨head, state', hh, hu, rfl⟩) with hn | hn
      · exact hn
      · exact absurd (finish_missing.mp hm) (not_le.mpr hn)

/-- The lengths are right if and only if the blank line comes before the first NUL, or nothing does,
or the block that a NUL cuts off happens to declare a harmless length. -/
theorem lengthsOk_iff {buf : Bytes} (hbuf : buf.length < 2 ^ 64) (state : ClientState) :
    LengthsOk state buf ↔
      httpEnd <:+: cstr buf ∨ cstr buf = [] ∨ CutByNul state buf := by
  by_cases hblank : httpEnd <:+: cstr buf
  · exact iff_of_true (lengthsOk_of_blank hbuf hblank state) (.inl hblank)
  · by_cases hnil : cstr buf = []
    · exact iff_of_true (lengthsOk_of_nil hnil state) (.inr (.inl hnil))
    · rw [lengthsOk_iff_cutByNul hbuf hblank hnil]
      simp [hblank, hnil]

def getRoot : Bytes := utf8 "GET / HTTP/1.1\r\n\r\n"

theorem lengthsOk_iff_get : LengthsOk shortLive getRoot :=
  (lengthsOk_iff (by decide +kernel) shortLive).mpr (.inl (by decide +kernel))

def unterminatedPost : Bytes := utf8 "POST /img/ HTTP/1.1\r\nContent-Length: 4000\r\n"

/-- Without the blank line, the subtraction wraps and a body of 4000 bytes is handled. -/
theorem unterminated_overread : ¬ LengthsOk shortLive unterminatedPost := by
  intro hok
  have hparse : (parseHttp shortLive unterminatedPost).map
      (Option.map (fun r => (r.1.missing, r.1.bodyLen))) = .ok (some (false, 4000)) := by
    decide +kernel
  have hfollowing : followingLen unterminatedPost = 0 := by
    decide +kernel
  cases hp : parseHttp shortLive unterminatedPost with
  | error fault => simp [hp, Except.map] at hparse
  | ok r =>
      cases r with
      | none => simp [hp, Except.map] at hparse
      | some r =>
          obtain ⟨http, state'⟩ := r
          simp only [hp, Except.map, Option.map_some, Except.ok.injEq, Option.some.injEq,
            Prod.mk.injEq] at hparse
          have := hok.bounded http state' hp hparse.1
          omega

end ChityChat.HttpLengths
