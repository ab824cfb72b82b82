import ChityChat.PathResolve
import ChityChat.ServerHandleHttp

namespace ChityChat.GetConfinement

open CString JsonC ServerHttp ServerHandleHttp PathResolve

def configPathLen : Nat := 512

structure RootDir where
  text : Bytes
  ne : text ≠ []
  fits : text.length < configPathLen

/-- Every path that a `GET` opens lies inside `root_dir`. -/
def Confined (root : RootDir) (cwd : List Bytes) (url : Bytes) : Prop :=
  ∀ server : Server, server.rootDir = root.text → ∀ path,
    serverHandleHttpGet server url = .ok (some path) → Inside 47 46 cwd root.text path

def behindRoot (root : RootDir) (url : Bytes) : Bytes :=
  (if url[min url.length httpUrlLen - 1]? = some 47 then url ++ utf8 "index.html" else url).take
    (pathMax - 1 - root.text.length)

def lastComponent (root : RootDir) : Bytes := (components 47 root.text).getLast?.getD []

def parentDirs (root : RootDir) (cwd : List Bytes) : List Bytes :=
  (components 47 root.text).dropLast.foldl (walk 46) (start 47 cwd root.text)

def UrlStays (root : RootDir) (cwd : List Bytes) (url : Bytes) : Prop :=
  Stays 46 (parentDirs root cwd) (lastComponent root)
    ((components 47 (behindRoot root url)).headD []) (components 47 (behindRoot root url)).tail

instance (root : RootDir) (cwd : List Bytes) (url : Bytes) : Decidable (UrlStays root cwd url) :=
  inferInstanceAs (Decidable (Stays _ _ _ _ _))

theorem getPath_eq (root : RootDir) {url : Bytes} (h : url ≠ []) :
    getPath root.text url = .ok (root.text ++ behindRoot root url) := by
  have hpos : min url.length httpUrlLen ≠ 0 := by
    have := List.length_pos_iff.mpr h
    simp [httpUrlLen]
    omega
  obtain ⟨last, hlast⟩ := Nat.exists_eq_add_one_of_ne_zero hpos
  have hroot : root.text.length ≤ pathMax - 1 := root.fits.le.trans (by decide)
  rw [getPath, behindRoot, hlast, Nat.add_sub_cancel]
  simp only [Except.ok.injEq]
  split <;> simp [List.take_append, List.take_of_length_le hroot]

theorem start_append (root : RootDir) (cwd : List Bytes) (tail : Bytes) :
    start 47 cwd (root.text ++ tail) = start 47 cwd root.text := by
  obtain ⟨c, s, hc⟩ := List.exists_cons_of_ne_nil root.ne
  simp [start, hc]

theorem resolve_append (root : RootDir) (cwd : List Bytes) (tail : Bytes) :
    resolve 47 46 cwd root.text = walk 46 (parentDirs root cwd) (lastComponent root) ∧
      resolve 47 46 cwd (root.text ++ tail) =
        (components 47 tail).tail.foldl (walk 46)
          (walk 46 (parentDirs root cwd) (lastComponent root ++ (components 47 tail).headD [])) := by
  obtain ⟨rs, r, u, us, hroot, htail, happend⟩ := components_append 47 root.text tail
  have hlast : lastComponent root = r := by
    simp [lastComponent, hroot]
  have hparent : parentDirs root cwd = rs.foldl (walk 46) (start 47 cwd root.text) := by
    simp [parentDirs, hroot]
  constructor
  · rw [resolve, hroot, List.foldl_append, hparent, hlast]
    rfl
  · rw [resolve, start_append, happend, htail, List.foldl_append, hparent, hlast]
    rfl

theorem resolve_index (cwd : List Bytes) {path : Bytes} (h : path ≠ []) :
    resolve 47 46 cwd (path ++ utf8 "/index.html") =
      resolve 47 46 cwd path ++ [utf8 "index.html"] := by
  have hindex : utf8 "/index.html" = 47 :: utf8 "index.html" := by decide +kernel
  have hnone : 47 ∉ utf8 "index.html" := by decide +kernel
  have hproper : Proper 46 (utf8 "index.html") := by decide +kernel
  obtain ⟨c, s, rfl⟩ := List.exists_cons_of_ne_nil h
  rw [resolve, hindex, components_sep, components_of_notMem 47 hnone, List.foldl_append,
    List.foldl_cons, List.foldl_nil, walk_proper hproper]
  rfl

theorem behindRoot_climbs {root : RootDir} {url : Bytes} (h : serverHttpUrlChecks url = true) :
    ∀ c ∈ (components 47 (behindRoot root url)).tail.dropLast, c ≠ [46, 46] := by
  have hurl : ¬ [46, 46] ++ [47] <:+: url := by
    have hdots : utf8 "../" = [46, 46] ++ [47] := by decide +kernel
    simpa [serverHttpUrlChecks, hdots] using h
  rintro c hc rfl
  have hmem : [46, 46] ∈ (components 47 (behindRoot root url)).dropLast := by
    rw [← List.tail_dropLast] at hc
    exact List.mem_of_mem_tail hc
  have hinfix := (infix_of_mem_dropLast 47 hmem).trans (List.take_prefix ..).isInfix
  split at hinfix
  · exact hurl (infix_of_append 47 (by decide +kernel) hinfix)
  · exact hurl hinfix

/-- A `GET` stays inside `root_dir` if and only if its url begins with a slash or is empty, and
names something before a `..` at its end. Where `root_dir` itself does not end with a name, `Stays`
lists what else the url may begin with. -/
theorem get_confined_iff (root : RootDir) (cwd : List Bytes) {url : Bytes}
    (h : serverHttpUrlChecks url = true) : Confined root cwd url ↔ UrlStays root cwd url := by
  obtain ⟨hroot, hpath⟩ := resolve_append root cwd (behindRoot root url)
  have hinside : Inside 47 46 cwd root.text (root.text ++ behindRoot root url) ↔
      UrlStays root cwd url := by
    rw [Inside, hroot, hpath]
    exact prefix_stays_iff (behindRoot_climbs h)
  by_cases hnil : url = []
  · subst hnil
    refine iff_of_true ?_ ?_
    · intro server _ path he
      simp [serverHandleHttpGet, h, getPath] at he
    · simp [UrlStays, behindRoot, components, Stays]
  · have hget : ∀ server : Server, server.rootDir = root.text →
        serverHandleHttpGet server url =
          .ok ((server.fileIsdir (root.text ++ behindRoot root url)).map (fun isdir =>
            if isdir then root.text ++ behindRoot root url ++ utf8 "/index.html"
            else root.text ++ behindRoot root url)) := by
      intro server hs
      rw [serverHandleHttpGet, h, hs, getPath_eq root hnil]
      simp
    rw [← hinside]
    constructor
    · intro hc
      apply hc ⟨root.text, fun _ => some false, fun _ => none, false⟩ rfl
      rw [hget _ rfl]
      simp
    · intro hin server hs path he
      rw [hget server hs, Except.ok.injEq, Option.map_eq_some_iff] at he
      obtain ⟨isdir, -, rfl⟩ := he
      cases isdir with
      | false => exact hin
      | true =>
          rw [if_pos rfl, Inside, resolve_index cwd (by simp [root.ne])]
          exact hin.trans (List.prefix_append _ _)

def clientPublic : RootDir := ⟨utf8 "client/public", by decide +kernel, by decide +kernel⟩

theorem get_confined_iff_favicon : Confined clientPublic [utf8 "srv"] (utf8 "/favicon.ico") :=
  (get_confined_iff clientPublic [utf8 "srv"] (by decide +kernel)).mpr (by decide +kernel)

/-- `client/public/../index.html` is opened. -/
theorem parent_escapes : ¬ Confined clientPublic [utf8 "srv"] (utf8 "/..") := by
  intro hc
  have hopen := hc ⟨utf8 "client/public", fun _ => some true, fun _ => none, false⟩ rfl
    (utf8 "client/public/../index.html") (by decide +kernel)
  exact absurd hopen (by decide +kernel)

end ChityChat.GetConfinement
