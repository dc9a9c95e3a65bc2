import FileDepot.Store.Resource
import Mathlib.Data.List.Induction

/-!
# Resources in use

A resource and the stream that has been taken from it are two handles of one stream: they share the place up
to which it has been read, and closing one of them closes the other. What is read through either of them, in
whatever order, are the bytes of the file, each once and in turn.

Contents:

* `Use`, `Use.Answer` — what can be done with a resource and its stream, and what that gives;
* `InUse.use`, `InUse.log` — one use, and uses one after another with their answers;
* `ByteStream.read_spec`, `InUse.use_effect` — what one read and one use do;
* `InUse.Account`, `InUse.account_after` — what the log of a run tells of the resource that it leaves;
* `InUse.log_accounts` — the chunks, the handing out and the closing over a whole run;
* `InUse.closed_read_beyond_word` — a read from a closed stream that is refused for its size.
-/

namespace FileDepot

/-! ## Sizes -/

/-- A size as it is handed to a read: a whole number, or null. -/
def sizeValue : Option Int → Value
  | none => .null
  | some n => .int n

/-- The size asks for all that is left. -/
def asksForAll : Option Int → Bool
  | none => true
  | some n => n < 0

/-- A signed word holds the size. -/
def fitsWord : Option Int → Bool
  | none => true
  | some n => Word.holds n

/-- What a size asks for of the bytes that are left. -/
def asked : Option Int → Bytes → Bytes
  | none, left => left
  | some n, left => if n < 0 then left else left.take n.toNat

/-- Why a closed stream refuses to be read. The size is looked at before the stream is, so that one beyond a
signed word is refused as such. -/
def closedRefusal (size : Option Int) : Failure :=
  if fitsWord size then .invalid "I/O operation on closed file." else .outOfRange

/-- The bytes that the answer of a read holds. -/
def bytesOf : Except Failure Bytes → Bytes
  | .ok chunk => chunk
  | .error _ => []

namespace ByteStream

/-- What a read does: it gives the next bytes and keeps the ones behind them, leaves none of these if it asks
for all, and is refused by a closed stream. -/
theorem read_spec (s : ByteStream) (size : Option Int) :
    bytesOf (s.read (sizeValue size)).2 ++ (s.read (sizeValue size)).1.remaining = s.remaining ∧
      (s.read (sizeValue size)).1.closed = s.closed ∧
      (s.closed = true → (s.read (sizeValue size)).2 = .error (closedRefusal size)) ∧
      (s.closed = false → fitsWord size = true →
        (s.read (sizeValue size)).2 = .ok (asked size s.remaining)) ∧
      ∀ chunk, (s.read (sizeValue size)).2 = .ok chunk → asksForAll size = true →
        (s.read (sizeValue size)).1.remaining = [] := by
  obtain ⟨remaining, closed⟩ := s
  cases size with
  | none => cases closed <;> simp [read, count?, sizeValue, bytesOf, closedRefusal, fitsWord, asked]
  | some n =>
    cases hholds : Word.holds n with
    | false => simp [read, count?, sizeValue, Value.whole?, hholds, bytesOf, closedRefusal, fitsWord]
    | true =>
      by_cases hn : n < 0
      · cases closed <;>
          simp [read, count?, sizeValue, Value.whole?, hholds, hn, bytesOf, closedRefusal, fitsWord, asked]
      · cases closed <;>
          simp [read, count?, sizeValue, Value.whole?, hholds, hn, bytesOf, closedRefusal, fitsWord, asked,
            asksForAll]

end ByteStream

/-! ## Uses -/

/-- What can be done with a resource, and with its stream once that has been taken. -/
inductive Use
  | read (size : Option Int)
  /-- Takes the stream. -/
  | take
  /-- Reads from the stream that has been taken. -/
  | readTaken (size : Option Int)
  | close
  /-- Reads inside a block that closes the resource at its end. -/
  | readInside (size : Option Int)
  deriving Repr, DecidableEq

/-- What a use gives. -/
inductive Use.Answer
  | chunk (bytes : Bytes)
  | stream (s : ByteStream)
  | done
  /-- Nobody has taken the stream that is to be read. -/
  | noStream
  | refused (failure : Failure)
  deriving Repr, DecidableEq

namespace Use

/-- The answer of a read. -/
def Answer.ofRead : Except Failure Bytes → Answer
  | .ok given => .chunk given
  | .error e => .refused e

/-- The bytes that an answer holds; a stream that is handed out holds its own. -/
def Answer.given : Answer → Bytes
  | .chunk bytes => bytes
  | _ => []

/-- The answer is a chunk. -/
def Answer.isChunk : Answer → Bool
  | .chunk _ => true
  | _ => false

/-- The stream has been handed out. -/
def Answer.isStream : Answer → Bool
  | .stream _ => true
  | _ => false

@[simp] theorem Answer.given_ofRead (answer : Except Failure Bytes) :
    (Answer.ofRead answer).given = bytesOf answer := by
  cases answer <;> rfl

@[simp] theorem Answer.isStream_ofRead (answer : Except Failure Bytes) :
    (Answer.ofRead answer).isStream = false := by
  cases answer <;> rfl

theorem Answer.isChunk_ofRead {answer : Except Failure Bytes} (h : (Answer.ofRead answer).isChunk = true) :
    ∃ chunk, answer = .ok chunk := by
  cases answer with
  | ok chunk => exact ⟨chunk, rfl⟩
  | error e => cases h

theorem Answer.ofRead_ne_noStream (answer : Except Failure Bytes) : Answer.ofRead answer ≠ .noStream := by
  cases answer <;> intro h <;> cases h

/-- The size that a use asks for, if it reads. -/
def size? : Use → Option (Option Int)
  | .read size | .readTaken size | .readInside size => some size
  | .take | .close => none

/-- The use reads all that is left. -/
def readsAll (x : Use) : Bool :=
  x.size?.any asksForAll

/-- The stream is closed after the use. -/
def closes : Use → Bool
  | .close | .readInside _ => true
  | .read _ | .take | .readTaken _ => false

/-- The stream cannot be taken after the use: it has been taken, or read through the resource. -/
def spends : Use → Bool
  | .read _ | .take | .readInside _ => true
  | .readTaken _ | .close => false

end Use

open Use (Answer)

/-- A resource in use; `held` tells that somebody has taken its stream. -/
structure InUse where
  resource : Resource
  held : Bool := false
  deriving Repr, Inhabited

namespace InUse

/-- The resource that pairs a record with the data of its file. -/
def start (file : FileRecord) (data : Bytes) : InUse where
  resource := { file := file, stream := { remaining := data } }

/-- One use, as the resource that it leaves and the answer that it gives. -/
def use (u : InUse) : Use → InUse × Answer
  | .read size =>
    let (resource, answer) := u.resource.read (sizeValue size)
    ({ u with resource := resource }, .ofRead answer)
  | .take =>
    match u.resource.takeStream with
    | (resource, .ok s) => ({ resource := resource, held := true }, .stream s)
    | (resource, .error e) => ({ u with resource := resource }, .refused e)
  | .readTaken size =>
    if u.held then
      let (resource, answer) := u.resource.readTaken (sizeValue size)
      ({ u with resource := resource }, .ofRead answer)
    else (u, .noStream)
  | .close => ({ u with resource := u.resource.close }, .done)
  | .readInside size =>
    let (resource, answer) := u.resource.readAndClose (sizeValue size)
    ({ u with resource := resource }, .ofRead answer)

/-- The resource that uses leave, one after another. -/
def after (u : InUse) (uses : List Use) : InUse :=
  uses.foldl (fun u x => (u.use x).1) u

/-- The uses one after another, each with its answer. -/
def log (u : InUse) : List Use → List (Use × Answer)
  | [] => []
  | x :: uses => (x, (u.use x).2) :: log (u.use x).1 uses

/-- The bytes of all chunks in turn. -/
def delivered (log : List (Use × Answer)) : Bytes :=
  log.flatMap fun e => e.2.given

/-- The failure of taking the stream a second time. -/
def takenBefore (u : InUse) : Failure :=
  .streamTaken s!"{u.resource.description}: input stream already consumed"

/-! ## One use -/

/-- What a use does: which bytes it gives, what it leaves, and when it is refused. -/
structure Effect (u : InUse) (x : Use) (answer : Answer) (u' : InUse) : Prop where
  /-- The bytes that are given and those that are left are the ones that were left before. -/
  remaining : answer.given ++ u'.resource.stream.remaining = u.resource.stream.remaining
  closed : u'.resource.stream.closed = (u.resource.stream.closed || x.closes)
  taken : u'.resource.taken = (u.resource.taken || x.spends)
  file : u'.resource.file = u.resource.file
  held : u'.held = (u.held || answer.isStream)
  idle : x.size? = none → answer.given = []
  all : answer.isChunk = true → x.readsAll = true → u'.resource.stream.remaining = []
  take : x = .take →
    answer = if u.resource.taken then .refused u.takenBefore else .stream u.resource.stream
  stream : answer.isStream = true → u.resource.taken = false
  spent : answer.isStream = true → u'.resource.taken = true
  /-- A taken stream is read only by somebody who holds it. -/
  noStream : answer = .noStream ↔ (∃ size, x = .readTaken size) ∧ u.held = false
  refused : u.resource.stream.closed = true → ∀ size, x.size? = some size → answer ≠ .noStream →
    answer = .refused (closedRefusal size)
  chunk : u.resource.stream.closed = false → ∀ size, x.size? = some size → fitsWord size = true →
    answer ≠ .noStream → answer = .chunk (asked size u.resource.stream.remaining)

/-- A read through one of the two handles has the effect of a read, whatever else it does to the resource. -/
theorem effect_of_read {u u' : InUse} {x : Use} {size : Option Int} (hx : x.size? = some size)
    (hfree : ∀ size, x = .readTaken size → u.held = true)
    (hremaining : u'.resource.stream.remaining = (u.resource.stream.read (sizeValue size)).1.remaining)
    (hclosed : u'.resource.stream.closed =
      ((u.resource.stream.read (sizeValue size)).1.closed || x.closes))
    (htaken : u'.resource.taken = (u.resource.taken || x.spends))
    (hfile : u'.resource.file = u.resource.file) (hheld : u'.held = u.held) :
    Effect u x (.ofRead (u.resource.stream.read (sizeValue size)).2) u' := by
  obtain ⟨hbytes, hkept, hrefused, hgiven, hall⟩ := u.resource.stream.read_spec size
  have hsize {size' : Option Int} (h : x.size? = some size') : size' = size :=
    Option.some.inj (h.symm.trans hx)
  constructor
  case remaining =>
    rw [Answer.given_ofRead, hremaining]
    exact hbytes
  case closed => rw [hclosed, hkept]
  case taken => exact htaken
  case file => exact hfile
  case held => rw [hheld, Answer.isStream_ofRead, Bool.or_false]
  case idle =>
    intro h
    rw [hx] at h
    cases h
  case all =>
    intro hchunk hreads
    obtain ⟨chunk, hanswer⟩ := Answer.isChunk_ofRead hchunk
    have hasks : asksForAll size = true := by simpa [Use.readsAll, hx] using hreads
    rw [hremaining]
    exact hall chunk hanswer hasks
  case take =>
    rintro rfl
    cases hx
  case stream | spent =>
    intro h
    rw [Answer.isStream_ofRead] at h
    cases h
  case noStream =>
    refine iff_of_false (Answer.ofRead_ne_noStream _) ?_
    rintro ⟨⟨size, rfl⟩, hnobody⟩
    rw [hfree size rfl] at hnobody
    cases hnobody
  case refused =>
    intro hc size' hsize' _
    rw [hsize hsize']
    exact congrArg Answer.ofRead (hrefused hc)
  case chunk =>
    intro hopen size' hsize' hfits _
    rw [hsize hsize'] at hfits ⊢
    exact congrArg Answer.ofRead (hgiven hopen hfits)

/-- **What one use does.** -/
theorem use_effect (u : InUse) (x : Use) : Effect u x (u.use x).2 (u.use x).1 := by
  cases x with
  | read size =>
    refine effect_of_read rfl (by simp) rfl ?_ ?_ rfl rfl
    · exact (Bool.or_false _).symm
    · exact (Bool.or_true _).symm
  | readInside size =>
    refine effect_of_read rfl (by simp) rfl ?_ ?_ rfl rfl
    · exact (Bool.or_true _).symm
    · exact (Bool.or_true _).symm
  | readTaken size =>
    unfold use
    cases hheld : u.held with
    | true =>
      refine effect_of_read rfl (fun _ _ => hheld) rfl ?_ ?_ rfl hheld.symm
      · exact (Bool.or_false _).symm
      · exact (Bool.or_false _).symm
    | false =>
      -- nobody holds the stream, so that nothing is read
      constructor <;> simp [Answer.given, Answer.isChunk, Answer.isStream, Use.closes, Use.spends, hheld]
  | take =>
    unfold use Resource.takeStream
    cases htaken : u.resource.taken <;>
      constructor <;>
        simp [Answer.given, Answer.isChunk, Answer.isStream, Use.closes, Use.spends, Use.size?, takenBefore, htaken]
  | close =>
    unfold use Resource.close ByteStream.close
    constructor <;>
      simp [Answer.given, Answer.isChunk, Answer.isStream, Use.closes, Use.spends, Use.size?]

/-! ## Runs of uses -/

theorem after_concat (u : InUse) (uses : List Use) (x : Use) :
    u.after (uses ++ [x]) = ((u.after uses).use x).1 := by
  unfold after
  rw [List.foldl_append]
  rfl

theorem log_concat (u : InUse) (uses : List Use) (x : Use) :
    u.log (uses ++ [x]) = u.log uses ++ [(x, ((u.after uses).use x).2)] := by
  induction uses generalizing u with
  | nil => rfl
  | cons y uses ih =>
    show (y, (u.use y).2) :: (u.use y).1.log (uses ++ [x]) = _
    rw [ih]
    rfl

/-- What is asked of the uses alone does not need their answers. -/
theorem any_log (u : InUse) (uses : List Use) (p : Use → Bool) :
    ((u.log uses).any fun e => p e.1) = uses.any p := by
  induction uses generalizing u with
  | nil => rfl
  | cons x uses ih =>
    show (p x || ((u.use x).1.log uses).any fun e => p e.1) = (p x || uses.any p)
    rw [ih]

/-- An entry of the log is the use of what the uses in front of it have left. -/
theorem log_eq_append {u : InUse} {uses : List Use} {before later : List (Use × Answer)} {x : Use}
    {answer : Answer} (h : u.log uses = before ++ (x, answer) :: later) :
    ∃ first, u.log first = before ∧ ((u.after first).use x).2 = answer := by
  induction before generalizing u uses with
  | nil =>
    cases uses with
    | nil => cases h
    | cons y uses =>
      obtain ⟨hentry, -⟩ := List.cons.inj h
      obtain ⟨rfl, hanswer⟩ := Prod.mk.inj hentry
      exact ⟨[], rfl, hanswer⟩
  | cons e before ih =>
    cases uses with
    | nil => cases h
    | cons y uses =>
      obtain ⟨rfl, hrest⟩ := List.cons.inj h
      obtain ⟨first, hbefore, hanswer⟩ := ih hrest
      refine ⟨y :: first, ?_, hanswer⟩
      show (y, (u.use y).2) :: (u.use y).1.log first = _
      rw [hbefore]

/-- What the log tells of the resource that the uses have left. -/
structure Account (file : FileRecord) (data : Bytes) (log : List (Use × Answer)) (u : InUse) : Prop where
  file : u.resource.file = file
  remaining : delivered log ++ u.resource.stream.remaining = data
  closed : u.resource.stream.closed = log.any fun e => e.1.closes
  taken : u.resource.taken = log.any fun e => e.1.spends
  held : u.held = log.any fun e => e.2.isStream
  all : ∀ e ∈ log, e.2.isChunk = true → e.1.readsAll = true → u.resource.stream.remaining = []
  once : (log.countP fun e => e.2.isStream) ≤ u.resource.taken.toNat
  /-- Nothing has been read from a stream that can still be taken. -/
  fresh : u.resource.taken = false → u.resource.stream.remaining = data

/-- A use of a stream that nobody has taken gives no bytes unless it spends the stream. -/
theorem Effect.given_eq_nil {u u' : InUse} {x : Use} {answer : Answer} (h : Effect u x answer u')
    (hheld : u.held = false) (hx : x.spends = false) : answer.given = [] := by
  cases x with
  | read size | readInside size | take => cases hx
  | close => exact h.idle rfl
  | readTaken size =>
    have hnoStream : answer = .noStream := h.noStream.mpr ⟨⟨size, rfl⟩, hheld⟩
    rw [hnoStream]
    rfl

/-- The stream of a resource that can be taken has not been handed out. -/
theorem Account.held_eq_false {file : FileRecord} {data : Bytes} {log : List (Use × Answer)} {u : InUse}
    (h : Account file data log u) (htaken : u.resource.taken = false) : u.held = false := by
  have honce := h.once
  rw [htaken] at honce
  have hnone : ∀ e ∈ log, ¬ e.2.isStream = true := List.countP_eq_zero.mp (Nat.le_zero.mp honce)
  rw [h.held]
  simpa using hnone

/-- **One more use keeps the account.** -/
theorem Account.use {file : FileRecord} {data : Bytes} {log : List (Use × Answer)} {u : InUse}
    (h : Account file data log u) (x : Use) :
    Account file data (log ++ [(x, (u.use x).2)]) (u.use x).1 := by
  have heffect := u.use_effect x
  generalize (u.use x).1 = u' at heffect ⊢
  generalize (u.use x).2 = answer at heffect ⊢
  constructor
  case file =>
    rw [heffect.file]
    exact h.file
  case remaining =>
    have hdelivered : delivered (log ++ [(x, answer)]) = delivered log ++ answer.given := by
      unfold delivered
      simp
    rw [hdelivered, List.append_assoc, heffect.remaining]
    exact h.remaining
  case closed =>
    rw [heffect.closed, h.closed]
    simp
  case taken =>
    rw [heffect.taken, h.taken]
    simp
  case held =>
    rw [heffect.held, h.held]
    simp
  case all =>
    intro e he hchunk hreads
    rcases List.mem_append.mp he with he | he
    · -- nothing was left before, so that nothing is left now
      have hnothing := h.all e he hchunk hreads
      have hbytes := heffect.remaining
      rw [hnothing] at hbytes
      exact (List.append_eq_nil_iff.mp hbytes).2
    · obtain rfl := List.mem_singleton.mp he
      exact heffect.all hchunk hreads
  case once =>
    rw [List.countP_append, List.countP_singleton]
    have honce := h.once
    cases hstream : answer.isStream with
    | false =>
      have hmono : u.resource.taken.toNat ≤ u'.resource.taken.toNat := by
        rw [heffect.taken]
        cases u.resource.taken <;> simp
      simp only [Bool.false_eq_true, if_false]
      omega
    | true =>
      -- the stream is handed out only while it has not been spent, and spent by that
      have htaken := heffect.stream hstream
      have hspent : u'.resource.taken = true := heffect.spent hstream
      rw [htaken] at honce
      rw [hspent]
      simpa using honce
  case fresh =>
    intro htaken
    rw [heffect.taken, Bool.or_eq_false_iff] at htaken
    have hnone := heffect.given_eq_nil (h.held_eq_false htaken.1) htaken.2
    have hbytes := heffect.remaining
    rw [hnone, h.fresh htaken.1] at hbytes
    exact hbytes

/-- Every run of uses keeps the account. -/
theorem account_after (file : FileRecord) (data : Bytes) (uses : List Use) :
    Account file data ((start file data).log uses) ((start file data).after uses) := by
  induction uses using List.reverseRecOn with
  | nil =>
    exact {
      file := rfl
      remaining := rfl
      closed := rfl
      taken := rfl
      held := rfl
      all := fun _ he => nomatch he
      once := Nat.zero_le _
      fresh := fun _ => rfl }
  | append_singleton uses x ih =>
    rw [log_concat, after_concat]
    exact ih.use x

/-- Once all that was left has been read, the chunks are the data. -/
theorem Account.delivered_eq {file : FileRecord} {data : Bytes} {log : List (Use × Answer)} {u : InUse}
    (h : Account file data log u)
    (hall : ∃ e ∈ log, e.2.isChunk = true ∧ e.1.readsAll = true) : delivered log = data := by
  obtain ⟨e, he, hchunk, hreads⟩ := hall
  have hbytes := h.remaining
  rw [h.all e he hchunk hreads, List.append_nil] at hbytes
  exact hbytes

/-- A stream is handed out as long as it has not been spent, and then gives all of the data. -/
theorem Account.take_answer {file : FileRecord} {data : Bytes} {log : List (Use × Answer)} {u : InUse}
    (h : Account file data log u) :
    (u.use .take).2 =
      if log.any fun e => e.1.spends then .refused (takenBefore (start file data))
      else .stream { remaining := data, closed := log.any fun e => e.1.closes } := by
  rw [(u.use_effect .take).take rfl, ← h.taken, ← h.closed]
  have hrefusal : u.takenBefore = takenBefore (start file data) := by
    unfold takenBefore Resource.description
    rw [h.file]
    rfl
  rw [hrefusal]
  cases htaken : u.resource.taken with
  | true => rfl
  | false =>
    have hstream : u.resource.stream = { remaining := data, closed := u.resource.stream.closed } := by
      rw [← h.fresh htaken]
    simp only [Bool.false_eq_true, if_false]
    rw [hstream]

/-- A closed stream gives nothing, through whichever handle it is read. -/
theorem Account.closed_answer {file : FileRecord} {data : Bytes} {log : List (Use × Answer)} {u : InUse}
    (h : Account file data log u) (hclosed : (log.any fun e => e.1.closes) = true) {x : Use}
    {size : Option Int} (hx : x.size? = some size) :
    (u.use x).2 = .noStream ∨ (u.use x).2 = .refused (closedRefusal size) := by
  by_cases hnoStream : (u.use x).2 = .noStream
  · exact Or.inl hnoStream
  · have hshut : u.resource.stream.closed = true := h.closed.trans hclosed
    exact Or.inr ((u.use_effect x).refused hshut size hx hnoStream)

/-- An open stream gives the bytes behind those that have been read. -/
theorem Account.open_answer {file : FileRecord} {data : Bytes} {log : List (Use × Answer)} {u : InUse}
    (h : Account file data log u) (hopen : (log.any fun e => e.1.closes) = false) {x : Use}
    {size : Option Int} (hx : x.size? = some size) (hfits : fitsWord size = true) :
    (u.use x).2 = .noStream ∨ (u.use x).2 = .chunk (asked size (data.drop (delivered log).length)) := by
  by_cases hnoStream : (u.use x).2 = .noStream
  · exact Or.inl hnoStream
  · have hunshut : u.resource.stream.closed = false := h.closed.trans hopen
    have hleft : data.drop (delivered log).length = u.resource.stream.remaining := by
      rw [← h.remaining]
      exact List.drop_left
    rw [hleft]
    exact Or.inr ((u.use_effect x).chunk hunshut size hx hfits hnoStream)

/-- **The chunks, the stream and the closing over a whole run.** The chunks that are read, through the resource
or through the stream that was taken from it, are a prefix of the data, and all of it once a read has asked for
all that is left. The stream is handed out at most once, with all of the data, and only in front of every read
through the resource. What has been closed stays closed and gives no byte, and until then each read gives the
bytes behind those that have been read. -/
theorem log_accounts (file : FileRecord) (data : Bytes) (uses : List Use) :
    let log := (start file data).log uses
    delivered log <+: data ∧
      ((∃ e ∈ log, e.2.isChunk = true ∧ e.1.readsAll = true) → delivered log = data) ∧
      (log.countP fun e => e.2.isStream) ≤ 1 ∧
      ((start file data).after uses).resource.stream.closed = (uses.any fun x => x.closes) ∧
      ∀ before x answer later, log = before ++ (x, answer) :: later →
        (x = .take →
          answer =
            if before.any fun e => e.1.spends then .refused (takenBefore (start file data))
            else .stream { remaining := data, closed := before.any fun e => e.1.closes }) ∧
        (answer = .noStream ↔
          (∃ size, x = .readTaken size) ∧ (before.any fun e => e.2.isStream) = false) ∧
        ((before.any fun e => e.1.closes) = true → ∀ size, x.size? = some size →
          answer = .noStream ∨ answer = .refused (closedRefusal size)) ∧
        ((before.any fun e => e.1.closes) = false → ∀ size, x.size? = some size → fitsWord size = true →
          answer = .noStream ∨ answer = .chunk (asked size (data.drop (delivered before).length))) := by
  intro log
  have haccount : Account file data log ((start file data).after uses) := account_after file data uses
  refine ⟨⟨_, haccount.remaining⟩, haccount.delivered_eq, ?_, ?_, ?_⟩
  · exact Nat.le_trans haccount.once (Bool.toNat_le _)
  · rw [haccount.closed]
    exact any_log _ uses _
  · intro before x answer later hsplit
    obtain ⟨first, rfl, rfl⟩ := log_eq_append hsplit
    have hbefore := account_after file data first
    refine ⟨?_, ?_, ?_, ?_⟩
    · rintro rfl
      exact hbefore.take_answer
    · rw [← hbefore.held]
      exact (use_effect _ x).noStream
    · intro hclosed size hx
      exact hbefore.closed_answer hclosed hx
    · intro hopen size hx hfits
      exact hbefore.open_answer hopen hx hfits

/-- Five bytes that are read through both handles in turn: the stream is not handed out again, and what is
read after the block has closed it gives nothing. -/
theorem log_accounts_of_both_handles :
    let file : FileRecord := { (default : FileRecord) with filename := .text "notes" }
    let uses : List Use :=
      [.take, .read (some 2), .readTaken (some 1), .take, .readInside none, .readTaken (some 1)]
    let log := (start file [104, 101, 108, 108, 111]).log uses
    log.map (fun e => e.2.given) = [[], [104, 101], [108], [], [108, 111], []] ∧
      delivered log = [104, 101, 108, 108, 111] ∧
      (log.countP fun e => e.2.isStream) ≤ 1 ∧
      log[3]? = some (.take, .refused (takenBefore (start file [104, 101, 108, 108, 111]))) ∧
      log[5]? = some (.readTaken (some 1), .refused (.invalid "I/O operation on closed file.")) := by
  intro file uses log
  obtain ⟨-, hall, honce, -, hentries⟩ := log_accounts file [104, 101, 108, 108, 111] uses
  have hchunks : log.map (fun e => e.2.given) = [[], [104, 101], [108], [], [108, 111], []] := rfl
  refine ⟨hchunks, hall ⟨(.readInside none, .chunk [108, 111]), by decide +kernel, rfl, rfl⟩, honce, ?_, ?_⟩
  · obtain ⟨htake, -⟩ := hentries (log.take 3) .take _ (log.drop 4) rfl
    exact congrArg (fun answer => some (Use.take, answer)) (htake rfl)
  · obtain ⟨-, hheld, hclosed, -⟩ := hentries (log.take 5) (.readTaken (some 1)) _ [] rfl
    rcases hclosed rfl (some 1) rfl with hanswer | hanswer
    · have hnobody := (hheld.mp hanswer).2
      cases hnobody
    · exact congrArg (fun answer => some (Use.readTaken (some 1), answer)) hanswer

/-- A closed stream does not always say that it is closed: a size that no signed word holds is refused first. -/
theorem closed_read_beyond_word :
    ¬ ∀ (file : FileRecord) (data : Bytes) (uses : List Use) before x answer later size,
      (start file data).log uses = before ++ (x, answer) :: later →
        (before.any fun e => e.1.closes) = true → x.size? = some size → answer ≠ .noStream →
          ∃ reason, answer = .refused (.invalid reason) := by
  intro h
  obtain ⟨reason, hanswer⟩ := h default [104, 101] [.close, .read (some 9223372036854775808)]
    [(.close, .done)] (.read (some 9223372036854775808)) (.refused .outOfRange) []
    (some 9223372036854775808) (by decide +kernel) rfl rfl (by decide)
  cases hanswer

end InUse

end FileDepot
