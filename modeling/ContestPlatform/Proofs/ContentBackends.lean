import ContestPlatform.Content.Bucket
import ContestPlatform.Proofs.FileTexts

/-!
# Content stores that answer alike

A store in memory, one in a tree of files and one in a bucket of an object service give the same
answers to the same calls. Each of them is compared with the map from keys to texts: every call
keeps a relation between the store and the map, and related stores answer a call alike.

What is assumed of an object service is `Bucket.Works`: it keeps one body under every path and
answers with the statuses that are documented for the requests. What is assumed of the calls is that
their keys can all be files below one root.
-/

namespace ContestPlatform.Content

open Text.Utf8 (encode decode? decode?_encode)

/-- The answers of a store to calls that are made one after the other. -/
def answers {σ : Type} (answer : σ → (call : Call) → call.Answer × σ) (s : σ) :
    List Call → List (Σ call : Call, call.Answer)
  | [] => []
  | call :: calls => ⟨call, (answer s call).1⟩ :: answers answer (answer s call).2 calls

/-- A store that stays related to a map answers as the map does. -/
theorem answers_eq_of_related {σ : Type} {answer : σ → (call : Call) → call.Answer × σ}
    (Related : σ → Map → Prop) {calls : List Call}
    (hstep : ∀ s m, Related s m → ∀ call ∈ calls,
      (answer s call).1 = (m.answer call).1 ∧ Related (answer s call).2 (m.answer call).2)
    {s : σ} {m : Map} (h : Related s m) : answers answer s calls = answers Map.answer m calls := by
  induction calls generalizing s m with
  | nil => rfl
  | cons call calls ih =>
    obtain ⟨hsame, hnext⟩ := hstep s m h call List.mem_cons_self
    have hrest := ih (fun s m h call hcall => hstep s m h call (List.mem_cons_of_mem _ hcall)) hnext
    rw [answers, answers, hsame, hrest]

/-- The store in memory answers as the map of its texts. -/
theorem Memory.answers_eq (m : Memory) (calls : List Call) :
    answers Memory.answer m calls = answers Map.answer m.get? calls := by
  refine answers_eq_of_related (fun m texts => m.get? = texts) ?_ rfl
  rintro m _ rfl call -
  exact ⟨LawfulContentStore.answer_eq m call, LawfulContentStore.texts_answer m call⟩

/-! ## Files -/

namespace FileStore

/-- Answer a call on a tree, with the names of staged files from a supply. -/
def answerNamed (s : FileTree × (Nat → Uuid)) (call : Call) :
    call.Answer × (FileTree × (Nat → Uuid)) :=
  let answered := (program [staging, (s.2 0).text] call).run s.1
  (answered.1, answered.2, fun n => s.2 (n + 1))

variable {rootLength : Nat} {K : Set String} {calls : List Call}

/-- The path of a staged file is one in the folder of staged files, with a short name. -/
theorem freshStaged_eq (t : FileTree) (target : Path) :
    ∃ name, freshStaged t target = [staging, name] ∧ FileTree.IsName name ∧
      name.utf8ByteSize ≤ 36 := by
  unfold freshStaged
  cases hfind : List.find? (fun path => (t.node? path).isNone && path != target.take 2)
      ((List.range (t.entries.length + 2)).map fun n => [staging, (Uuid.ofNat n).text]) with
  | none => exact ⟨"", by simp only [hfind, Option.getD_none], ⟨by decide, by decide⟩, by decide⟩
  | some path =>
    obtain ⟨n, -, rfl⟩ := List.mem_map.mp (List.mem_of_find?_eq_some hfind)
    refine ⟨(Uuid.ofNat n).text, ?_, isName_text _, (Uuid.utf8ByteSize_text _).le⟩
    simp only [hfind, Option.getD_some]

/-- A store in a new tree answers as the map does. -/
theorem answers_eq (hroom : rootLength + stagedLength ≤ FileTree.longestPath)
    (hK : KeysFit rootLength K) (hcalls : ∀ call ∈ calls, call.key ∈ K) :
    answers answer (empty rootLength) calls = answers Map.answer (fun _ => none) calls := by
  refine answers_eq_of_related (Represents rootLength K) ?_ (represents_empty hK)
  intro t m h call hcall
  obtain ⟨name, hstaged, hname, hshort⟩ := freshStaged_eq t (segments call.key)
  rw [answer, hstaged]
  exact h.program_run hK (walkable_staged hroom hname hshort) call (hcalls call hcall)

/-- It does so whatever names the staged files get. -/
theorem answersNamed_eq (hroom : rootLength + stagedLength ≤ FileTree.longestPath)
    (hK : KeysFit rootLength K) (hcalls : ∀ call ∈ calls, call.key ∈ K) (names : Nat → Uuid) :
    answers answerNamed (empty rootLength, names) calls =
      answers Map.answer (fun _ => none) calls := by
  refine answers_eq_of_related (fun s m => Represents rootLength K s.1 m) ?_ (represents_empty hK)
  rintro ⟨t, names⟩ m h call hcall
  have hshort := (Uuid.utf8ByteSize_text (names 0)).le
  exact h.program_run hK (walkable_staged hroom (isName_text _) hshort) call (hcalls call hcall)

end FileStore

/-! ## Objects -/

namespace Bucket

variable {σ : Type} {service : Request → σ → Reply × σ} {bucket : String}
  {objects : σ → String → Option (List UInt8)}

/-- The path of the object of a key. -/
def objectPath (bucket key : String) : String :=
  Request.path bucket ⟨.get key⟩

theorem objectPath_injective (bucket : String) : Function.Injective (objectPath bucket) := by
  intro key key' h
  exact Text.Percent.encodePath_injective ((String.append_right_inj _).mp h)

/-- An object service that works: it keeps one body under every path and nothing else decides how
    it replies. -/
structure Works (service : Request → σ → Reply × σ) (bucket : String)
    (objects : σ → String → Option (List UInt8)) : Prop where
  /-- A put that has to be refused where there is an object is refused there. -/
  refuse (r : Request) (s : σ) (hput : r.method = "PUT")
    (hthere : r.ifNoneMatch = true ∧ (objects s (r.path bucket)).isSome) :
    (service r s).1.status = 412 ∧ objects (service r s).2 = objects s
  /-- Any other put succeeds. -/
  put (r : Request) (s : σ) (hput : r.method = "PUT")
    (hfree : ¬ (r.ifNoneMatch = true ∧ (objects s (r.path bucket)).isSome)) :
    isSuccess (service r s).1.status = true ∧ objects (service r s).2 =
      Function.update (objects s) (r.path bucket) (some (encode r.body))
  /-- A get of an object gives its body. -/
  get (r : Request) (s : σ) (hget : r.method = "GET") (body : List UInt8)
    (hbody : objects s (r.path bucket) = some body) :
    isSuccess (service r s).1.status = true ∧ (service r s).1.body = body ∧
      objects (service r s).2 = objects s
  /-- A get where there is no object does not find it. -/
  absent (r : Request) (s : σ) (hget : r.method = "GET")
    (hnone : objects s (r.path bucket) = none) :
    (service r s).1.status = 404 ∧ objects (service r s).2 = objects s
  /-- A delete succeeds, or there was no object. -/
  delete (r : Request) (s : σ) (hdelete : r.method = "DELETE") :
    (isSuccess (service r s).1.status = true ∨
      (service r s).1.status = 404 ∧ objects s (r.path bucket) = none) ∧
      objects (service r s).2 = Function.update (objects s) (r.path bucket) none

/-- The service keeps the texts of a map under the paths of their keys. -/
def Keeps (bucket : String) (objects : String → Option (List UInt8)) (m : Map) : Prop :=
  ∀ key, isKey key = true → objects (objectPath bucket key) = (m key).map encode

theorem Keeps.update {objects : String → Option (List UInt8)} {m : Map}
    (h : Keeps bucket objects m) (key : String) (body? : Option String) :
    Keeps bucket (Function.update objects (objectPath bucket key) (body?.map encode))
      (Function.update m key body?) := by
  intro key' hkey'
  rw [Function.update_apply, Function.update_apply]
  by_cases heq : key' = key
  · rw [if_pos heq, if_pos (congrArg _ heq)]
  · rw [if_neg heq, if_neg ((objectPath_injective bucket).ne heq), h key' hkey']

theorem answer_of_isKey (s : σ) (call : Call) (hkey : isKey call.key = true) :
    Bucket.answer service s call =
      (outcome (service ⟨call⟩ s).1 call, (service ⟨call⟩ s).2) := by
  have hrequest : request? call = some ⟨call⟩ := if_pos hkey
  unfold Bucket.answer
  rw [hrequest]

namespace Works

variable {s : σ} {m : Map} {key : String}

theorem answer_put (hservice : Works service bucket objects) (h : Keeps bucket (objects s) m)
    (hkey : isKey key = true) (body : String) (mode : PutMode) :
    (Bucket.answer service s (.put key body mode)).1 = (m.answer (.put key body mode)).1 ∧
      Keeps bucket (objects (Bucket.answer service s (.put key body mode)).2)
        (m.answer (.put key body mode)).2 := by
  have hmode : (Request.mk (.put key body mode)).ifNoneMatch = true ↔ mode = .createOnly :=
    beq_iff_eq
  have hthere : (objects s (objectPath bucket key)).isSome = (m key).isSome := by
    rw [h key hkey, Option.isSome_map]
  rw [answer_of_isKey s (.put key body mode) hkey]
  by_cases hrefused : mode = .createOnly ∧ (m key).isSome
  · obtain ⟨hstatus, hobjects⟩ := hservice.refuse ⟨.put key body mode⟩ s rfl
      ⟨hmode.mpr hrefused.1, hthere.trans hrefused.2⟩
    rw [Map.answer_put_of_refused hkey hrefused]
    refine ⟨?_, ?_⟩
    · simp [outcome, hstatus, isSuccess]
    · rw [hobjects]
      exact h
  · obtain ⟨hstatus, hobjects⟩ := hservice.put ⟨.put key body mode⟩ s rfl
      fun hboth => hrefused ⟨hmode.mp hboth.1, hthere.symm.trans hboth.2⟩
    rw [Map.answer_put_of_free hkey hrefused]
    refine ⟨if_pos hstatus, ?_⟩
    rw [hobjects]
    exact h.update key (some body)

theorem answer_get (hservice : Works service bucket objects) (h : Keeps bucket (objects s) m)
    (hkey : isKey key = true) :
    (Bucket.answer service s (.get key)).1 = (m.answer (.get key)).1 ∧
      Keeps bucket (objects (Bucket.answer service s (.get key)).2) (m.answer (.get key)).2 := by
  have hobject := h key hkey
  rw [answer_of_isKey s (.get key) hkey]
  cases hbody : m key with
  | some body =>
    rw [hbody] at hobject
    obtain ⟨hstatus, hbytes, hobjects⟩ := hservice.get ⟨.get key⟩ s rfl _ hobject
    rw [Map.answer_get hkey hbody, hobjects]
    refine ⟨?_, h⟩
    simp only [outcome, hstatus, if_true, hbytes, decode?_encode]
  | none =>
    rw [hbody] at hobject
    obtain ⟨hstatus, hobjects⟩ := hservice.absent ⟨.get key⟩ s rfl hobject
    rw [Map.answer_get_of_none hkey hbody, hobjects]
    refine ⟨?_, h⟩
    simp [outcome, hstatus, isSuccess]

theorem answer_delete (hservice : Works service bucket objects) (h : Keeps bucket (objects s) m)
    (hkey : isKey key = true) :
    (Bucket.answer service s (.delete key)).1 = (m.answer (.delete key)).1 ∧
      Keeps bucket (objects (Bucket.answer service s (.delete key)).2)
        (m.answer (.delete key)).2 := by
  obtain ⟨hstatus, hobjects⟩ := hservice.delete ⟨.delete key⟩ s rfl
  have hdone : isSuccess (service ⟨.delete key⟩ s).1.status = true ∨
      (service ⟨.delete key⟩ s).1.status = 404 := hstatus.imp_right And.left
  rw [answer_of_isKey s (.delete key) hkey, Map.answer_delete_of_isKey hkey, hobjects]
  exact ⟨if_pos hdone, h.update key none⟩

/-- Every call with a key is answered as the map answers it. -/
theorem answer (hservice : Works service bucket objects) (h : Keeps bucket (objects s) m)
    (call : Call) (hkey : isKey call.key = true) :
    (Bucket.answer service s call).1 = (m.answer call).1 ∧
      Keeps bucket (objects (Bucket.answer service s call).2) (m.answer call).2 := by
  cases call with
  | put key body mode => exact hservice.answer_put h hkey body mode
  | get key => exact hservice.answer_get h hkey
  | delete key => exact hservice.answer_delete h hkey

end Works

/-- A store in an empty bucket answers as the map does. -/
theorem answers_eq (hservice : Works service bucket objects) {s : σ}
    (hempty : ∀ path, objects s path = none) {calls : List Call}
    (hcalls : ∀ call ∈ calls, isKey call.key = true) :
    answers (Bucket.answer service) s calls = answers Map.answer (fun _ => none) calls :=
  answers_eq_of_related (fun s m => Keeps bucket (objects s) m)
    (fun _ _ h call hcall => hservice.answer h call (hcalls call hcall))
    fun _ _ => hempty _

/-! ### A service -/

/-- A service that keeps the bodies under their paths. -/
def shelf (bucket : String) (r : Request) (s : String → Option (List UInt8)) :
    Reply × (String → Option (List UInt8)) :=
  if r.method = "PUT" then
    if r.ifNoneMatch = true ∧ (s (r.path bucket)).isSome then (⟨412, []⟩, s)
    else (⟨200, []⟩, Function.update s (r.path bucket) (some (encode r.body)))
  else if r.method = "GET" then
    match s (r.path bucket) with
    | some body => (⟨200, body⟩, s)
    | none => (⟨404, []⟩, s)
  else (⟨204, []⟩, Function.update s (r.path bucket) none)

theorem works_shelf (bucket : String) : Works (shelf bucket) bucket id where
  refuse r s hput hthere := by
    have hrefused : shelf bucket r s = (⟨412, []⟩, s) := by
      rw [shelf, if_pos hput]
      exact if_pos hthere
    rw [hrefused]
    exact ⟨rfl, rfl⟩
  put r s hput hfree := by
    have hkept : shelf bucket r s =
        (⟨200, []⟩, Function.update s (r.path bucket) (some (encode r.body))) := by
      rw [shelf, if_pos hput]
      exact if_neg hfree
    rw [hkept]
    exact ⟨rfl, rfl⟩
  get r s hget body hbody := by
    have hfound : shelf bucket r s = (⟨200, body⟩, s) := by
      have hobject : s (r.path bucket) = some body := hbody
      simp [shelf, hget, hobject]
    rw [hfound]
    exact ⟨rfl, rfl, rfl⟩
  absent r s hget hnone := by
    have hmissing : shelf bucket r s = (⟨404, []⟩, s) := by
      have hobject : s (r.path bucket) = none := hnone
      simp [shelf, hget, hobject]
    rw [hmissing]
    exact ⟨rfl, rfl⟩
  delete r s hdelete := by
    have hcleared : shelf bucket r s = (⟨204, []⟩, Function.update s (r.path bucket) none) := by
      simp [shelf, hdelete]
    rw [hcleared]
    exact ⟨Or.inl rfl, rfl⟩

end Bucket

/-! ## All stores -/

/-- Three stores give the same answers to the same calls: one in a new tree of files, whatever names
    its staged files get, one in an empty bucket of a service that works, and one in memory. The
    keys of the calls can all be files below the root. A put also needs the path of its staged file
    to be short enough, which is 42 bytes longer than the root's; below a root that leaves no room
    for it no put works, whatever its key. -/
theorem answers_agree {σ : Type} {service : Bucket.Request → σ → Bucket.Reply × σ}
    {bucket : String} {objects : σ → String → Option (List UInt8)}
    (hservice : Bucket.Works service bucket objects) {s : σ}
    (hempty : ∀ path, objects s path = none) {rootLength : Nat}
    (hroom : rootLength + FileStore.stagedLength ≤ FileTree.longestPath) {K : Set String}
    (hK : FileStore.KeysFit rootLength K) {calls : List Call}
    (hcalls : ∀ call ∈ calls, call.key ∈ K) (names : Nat → Uuid) :
    answers FileStore.answerNamed (FileStore.empty rootLength, names) calls =
        answers Memory.answer Memory.empty calls ∧
      answers FileStore.answer (FileStore.empty rootLength) calls =
        answers Memory.answer Memory.empty calls ∧
      answers (Bucket.answer service) s calls = answers Memory.answer Memory.empty calls := by
  have hkeys : ∀ call ∈ calls, isKey call.key = true :=
    fun call hcall => (hK.fits call.key (hcalls call hcall)).isKey
  have hmemory : answers Memory.answer Memory.empty calls =
      answers Map.answer (fun _ => none) calls := Memory.answers_eq Memory.empty calls
  rw [hmemory]
  exact ⟨FileStore.answersNamed_eq hroom hK hcalls names, FileStore.answers_eq hroom hK hcalls,
    Bucket.answers_eq hservice hempty hkeys⟩

/-- A text that is created, kept from a second creation, and deleted, and another one that is
    written over. -/
def someCalls : List Call :=
  [.put "notes/one" "first" .createOnly, .put "notes/one" "second" .createOnly, .get "notes/one",
    .delete "notes/one", .get "notes/one", .put "two" "first" .overwrite,
    .put "two" "second" .overwrite, .get "two"]

private theorem keysFit_some : FileStore.KeysFit 15 {"notes/one", "two"} := by
  constructor
  · rintro key (rfl | rfl)
    · decide
    · decide
  · rintro key (rfl | rfl) key' (rfl | rfl)
    · exact fun _ => rfl
    · exact fun hin => absurd hin (by decide)
    · exact fun hin => absurd hin (by decide)
    · exact fun _ => rfl

/-- All stores answer these calls alike: the second creation is refused, and what was deleted is not
    found. -/
theorem someCalls_agree :
    answers FileStore.answerNamed (FileStore.empty 15, Uuid.ofNat) someCalls =
        answers Memory.answer Memory.empty someCalls ∧
      answers FileStore.answer (FileStore.empty 15) someCalls =
        answers Memory.answer Memory.empty someCalls ∧
      answers (Bucket.answer (Bucket.shelf "bucket")) (fun _ => none) someCalls =
        answers Memory.answer Memory.empty someCalls := by
  have hkeys : ∀ call ∈ someCalls, call.key = "notes/one" ∨ call.key = "two" := by decide
  exact answers_agree (Bucket.works_shelf "bucket") (fun _ => rfl) (by decide) keysFit_some hkeys _

end ContestPlatform.Content
