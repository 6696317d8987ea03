import Mathlib.Data.List.Basic
import Mathlib.Data.List.Infix
import Mathlib.Data.List.TakeWhile

/-!
# Incremental framing of a stream

A framer looks at the bytes it has buffered and waits for more, cuts a frame off the front, or
rejects what it holds; a frame or a rejection once decided does not depend on the bytes behind
it. `Drains` is the framer run on a buffer until it waits, `Feeds` the same as chunk after chunk
is appended to what it left over.

As long as nothing is rejected, feeding chunks is draining their concatenation
(`Feeds.drains_flatten`), so the frames depend on the stream alone. A rejection throws away what
happens to be buffered, so past the first one they do not; up to it they do (`Feeds.agree`).
-/

namespace Framing

variable {β : Type*}

/-- What a framer decides about the bytes it has buffered. -/
inductive Verdict
  | wait
  | frame (n : ℕ)
  | reject
  deriving DecidableEq, Repr

/-- A framer: its verdict, stable under more bytes once it is not to wait. -/
structure Framer (β : Type*) where
  verdict : List β → Verdict
  nil_wait : verdict [] = .wait
  frame_le : ∀ {b n}, verdict b = .frame n → n ≤ b.length
  frame_append : ∀ {b n}, verdict b = .frame n → ∀ c, verdict (b ++ c) = .frame n
  reject_append : ∀ {b}, verdict b = .reject → ∀ c, verdict (b ++ c) = .reject

/-- What becomes of a piece of the stream. -/
inductive Segment (β : Type*)
  | frame (bytes : List β)
  | dropped (bytes : List β)
  deriving DecidableEq, Repr

namespace Segment

def bytes : Segment β → List β
  | frame b => b
  | dropped b => b

def isFrame : Segment β → Bool
  | frame _ => true
  | dropped _ => false

@[simp] theorem bytes_frame (b : List β) : (frame b).bytes = b := rfl
@[simp] theorem bytes_dropped (b : List β) : (dropped b).bytes = b := rfl
@[simp] theorem isFrame_frame (b : List β) : (frame b).isFrame = true := rfl
@[simp] theorem isFrame_dropped (b : List β) : (dropped b).isFrame = false := rfl
end Segment

/-- The frames among the segments. -/
def frames : List (Segment β) → List (List β)
  | [] => []
  | .frame b :: l => b :: frames l
  | .dropped _ :: l => frames l

/-- The segments before the first rejection. -/
def lead (l : List (Segment β)) : List (Segment β) := l.takeWhile Segment.isFrame

/-- Nothing was rejected. -/
def Clean (l : List (Segment β)) : Prop := ∀ s ∈ l, s.isFrame = true

@[simp] theorem frames_nil : frames ([] : List (Segment β)) = [] := rfl

@[simp] theorem frames_append : ∀ l l' : List (Segment β), frames (l ++ l') = frames l ++ frames l'
  | [], _ => rfl
  | .frame b :: l, l' => congrArg (b :: ·) (frames_append l l')
  | .dropped _ :: l, l' => frames_append l l'

theorem mem_frames {b : List β} : ∀ {l : List (Segment β)}, b ∈ frames l ↔ .frame b ∈ l
  | [] => by simp
  | .frame c :: l => by simp [frames, mem_frames (l := l)]
  | .dropped c :: l => by simp [frames, mem_frames (l := l)]

@[simp] theorem frames_map_frame : ∀ l : List (List β), frames (l.map Segment.frame) = l
  | [] => rfl
  | b :: l => congrArg (b :: ·) (frames_map_frame l)

theorem clean_map_frame (l : List (List β)) : Clean (l.map Segment.frame) := by
  simp [Clean]

theorem clean_nil : Clean ([] : List (Segment β)) := by simp [Clean]

theorem clean_append {l l' : List (Segment β)} : Clean (l ++ l') ↔ Clean l ∧ Clean l' := by
  simp only [Clean, List.mem_append, or_imp, forall_and]

theorem clean_frame_cons {b : List β} {l : List (Segment β)} :
    Clean (.frame b :: l) ↔ Clean l := by
  simp [Clean]

theorem not_clean_dropped {b : List β} {l : List (Segment β)} :
    ¬ Clean (l ++ [Segment.dropped b]) := fun h => by
  simpa using h (.dropped b) (by simp)

theorem lead_append {l l' : List (Segment β)} (h : Clean l) : lead (l ++ l') = l ++ lead l' :=
  List.takeWhile_append_of_pos h

/-- The frames before the first rejection are the first ones. -/
theorem isPrefix_frames_lead (l : List (Segment β)) : frames (lead l) <+: frames l := by
  refine ⟨frames (l.dropWhile Segment.isFrame), ?_⟩
  rw [← frames_append, lead, List.takeWhile_append_dropWhile]

/-- The bytes of the frames of a clean log. -/
theorem Clean.flatten_frames : ∀ {l : List (Segment β)}, Clean l →
    (frames l).flatten = (l.map Segment.bytes).flatten
  | [], _ => rfl
  | .frame b :: l, h => by
    simp only [frames, List.map_cons, List.flatten_cons, Segment.bytes_frame]
    rw [Clean.flatten_frames (clean_frame_cons.1 h)]
  | .dropped b :: l, h => by simpa using h (.dropped b) (by simp)

variable (F : Framer β)

/-- The framer run on a buffer until it waits: what became of it and what is left. A rejection
empties the buffer. -/
inductive Drains : List β → List (Segment β) → List β → Prop
  | wait {b : List β} : F.verdict b = .wait → Drains b [] b
  | frame {b : List β} {n : ℕ} {out : List (Segment β)} {rest : List β} :
      F.verdict b = .frame n → Drains (b.drop n) out rest →
        Drains b (.frame (b.take n) :: out) rest
  | reject {b : List β} : F.verdict b = .reject → Drains b [.dropped b] []

/-- The framer fed chunk after chunk. -/
inductive Feeds : List β → List (List β) → List (Segment β) → List β → Prop
  | nil (b : List β) : Feeds b [] [] b
  | cons {b c : List β} {cs : List (List β)} {o o' : List (Segment β)} {r r' : List β} :
      Drains F (b ++ c) o r → Feeds r cs o' r' → Feeds b (c :: cs) (o ++ o') r'

/-- Cutting frames off the front one comes to bytes that satisfy `P`. -/
inductive Comes (P : List β → Prop) : List β → Prop
  | here {b : List β} : P b → Comes P b
  | next {b : List β} {n : ℕ} : F.verdict b = .frame n → Comes P (b.drop n) → Comes P b

/-- The framer made a segment of what the bytes begin with: it cut a frame off them, or rejected
that much of them. -/
def Decided (b : List β) : Segment β → Prop
  | .frame fr => F.verdict b = .frame fr.length ∧ fr <+: b
  | .dropped d => F.verdict d = .reject ∧ d <+: b

/-- The frame is cut off the front. -/
def Cuts (fr b : List β) : Prop := ∃ n, F.verdict b = .frame n ∧ fr = b.take n

variable {F}

theorem Comes.imp {P Q : List β → Prop} (hPQ : ∀ b, P b → Q b) {b : List β}
    (h : Comes F P b) : Comes F Q b := by
  induction h with
  | here h => exact .here (hPQ _ h)
  | next hv _ ih => exact .next hv ih

theorem Decided.append {b : List β} {s : Segment β} (h : Decided F b s) (c : List β) :
    Decided F (b ++ c) s := by
  rcases s with fr | d
  · exact ⟨F.frame_append h.1 c, h.2.trans (List.prefix_append b c)⟩
  · exact ⟨h.1, h.2.trans (List.prefix_append b c)⟩

namespace Drains

theorem unique {b : List β} {o o' : List (Segment β)} {r r' : List β} (h : Drains F b o r)
    (h' : Drains F b o' r') : o = o' ∧ r = r' := by
  induction h generalizing o' r' with
  | wait hv => cases h' <;> simp_all
  | frame hv _ ih =>
    cases h' with
    | wait hv' => simp [hv] at hv'
    | frame hv' h' =>
      rw [hv, Verdict.frame.injEq] at hv'
      subst hv'
      obtain ⟨rfl, rfl⟩ := ih h'
      exact ⟨rfl, rfl⟩
    | reject hv' => simp [hv] at hv'
  | reject hv => cases h' <;> simp_all

theorem rest_wait {b : List β} {o : List (Segment β)} {r : List β} (h : Drains F b o r) :
    F.verdict r = .wait := by
  induction h with
  | wait hv => exact hv
  | frame _ _ ih => exact ih
  | reject _ => exact F.nil_wait

/-- A framer that cuts an empty frame never gets past it. -/
theorem frame_ne_zero {b : List β} {o : List (Segment β)} {r : List β} (h : Drains F b o r) :
    F.verdict b ≠ .frame 0 := by
  induction h with
  | wait hv => simp [hv]
  | @frame b n _ _ hv _ ih =>
    rcases n with _ | n
    · exact ih
    · simp [hv]
  | reject hv => simp [hv]

/-- Every byte is in one segment or left over, in order. -/
theorem bytes {b : List β} {o : List (Segment β)} {r : List β} (h : Drains F b o r) :
    (o.map Segment.bytes).flatten ++ r = b := by
  induction h with
  | wait _ => rfl
  | frame _ _ ih =>
    simp only [List.map_cons, List.flatten_cons, Segment.bytes_frame, List.append_assoc, ih,
      List.take_append_drop]
  | reject _ => simp

/-- Each segment of a drain is made where the ones before it end. -/
theorem decided {b : List β} {o : List (Segment β)} {r : List β} (h : Drains F b o r) :
    ∀ {pre : List (Segment β)} {s : Segment β} {post : List (Segment β)}, o = pre ++ s :: post →
      Decided F (b.drop (pre.map Segment.bytes).flatten.length) s := by
  induction h with
  | wait _ => intro pre s post ho; simp at ho
  | @frame b n out rest hv hd ih =>
    intro pre s post ho
    have hlen : (b.take n).length = n := List.length_take_of_le (F.frame_le hv)
    rcases pre with _ | ⟨f, pre⟩
    · obtain ⟨rfl, -⟩ := List.cons_eq_cons.1 ho
      exact ⟨hlen.symm ▸ hv, List.take_prefix n b⟩
    · obtain ⟨rfl, hout⟩ := List.cons_eq_cons.1 ho
      have hs := ih hout
      rwa [List.drop_drop, ← hlen, ← List.length_append] at hs
  | reject hv =>
    intro pre s post ho
    rcases pre with _ | ⟨f, pre⟩
    · obtain ⟨rfl, -⟩ := List.cons_eq_cons.1 ho
      exact ⟨hv, List.prefix_rfl⟩
    · simp at ho

/-- Only the last segment of a drain can be a rejection, and it leaves nothing. -/
theorem clean_or_dropped {b : List β} {o : List (Segment β)} {r : List β} (h : Drains F b o r) :
    Clean o ∨ ∃ fs d, o = fs ++ [.dropped d] ∧ Clean fs ∧ r = [] := by
  induction h with
  | wait _ => exact .inl clean_nil
  | frame _ _ ih =>
    rcases ih with hc | ⟨fs, d, rfl, hfs, rfl⟩
    · exact .inl (clean_frame_cons.2 hc)
    · exact .inr ⟨_ :: fs, d, rfl, clean_frame_cons.2 hfs, rfl⟩
  | reject _ => exact .inr ⟨[], _, rfl, clean_nil, rfl⟩

/-- Draining `x ++ y` is draining `x`, then what it left over followed by `y`. -/
theorem append {x : List β} {o₁ : List (Segment β)} {r₁ : List β} (h : Drains F x o₁ r₁)
    (hc : Clean o₁) {y : List β} {o₂ : List (Segment β)} {r₂ : List β}
    (h₂ : Drains F (r₁ ++ y) o₂ r₂) : Drains F (x ++ y) (o₁ ++ o₂) r₂ := by
  induction h with
  | wait _ => exact h₂
  | @frame b n out rest hv _ ih =>
    have hn := F.frame_le hv
    have hd : (b ++ y).drop n = b.drop n ++ y := List.drop_append_of_le_length hn
    have ht : (b ++ y).take n = b.take n := List.take_append_of_le_length hn
    have := frame (F.frame_append hv y) (hd ▸ ih (clean_frame_cons.1 hc) h₂)
    rwa [ht] at this
  | reject _ => exact absurd hc (not_clean_dropped (l := []))

/-- A rejection stays one when more bytes follow, and throws those away as well. -/
theorem append_dropped {x : List β} {o : List (Segment β)} {r : List β} (h : Drains F x o r) :
    ∀ {fs : List (Segment β)} {d : List β}, o = fs ++ [.dropped d] → ∀ y : List β,
      Drains F (x ++ y) (fs ++ [.dropped (d ++ y)]) [] := by
  induction h with
  | wait _ => intro fs d ho; simp at ho
  | @frame b n out rest hv _ ih =>
    intro fs d ho y
    rcases fs with _ | ⟨f, fs⟩
    · simp at ho
    obtain ⟨hf, hout⟩ := List.cons_eq_cons.1 (ho.trans (List.cons_append ..))
    have hn := F.frame_le hv
    have hd : (b ++ y).drop n = b.drop n ++ y := List.drop_append_of_le_length hn
    have ht : (b ++ y).take n = b.take n := List.take_append_of_le_length hn
    have := frame (F.frame_append hv y) (hd ▸ ih hout y)
    rwa [ht, hf] at this
  | reject hv =>
    intro fs d ho y
    rcases fs with _ | ⟨f, fs⟩
    · simp only [List.nil_append, List.cons.injEq, Segment.dropped.injEq, and_true] at ho
      subst ho
      exact reject (F.reject_append hv y)
    · simp at ho

/-- A drain of `x ++ y` goes through a clean drain of `x`. -/
theorem split {x : List β} {o₁ : List (Segment β)} {r₁ : List β} (h : Drains F x o₁ r₁)
    (hc : Clean o₁) {y : List β} {o : List (Segment β)} {r : List β}
    (h' : Drains F (x ++ y) o r) : ∃ o₂, o = o₁ ++ o₂ ∧ Drains F (r₁ ++ y) o₂ r := by
  induction h generalizing o with
  | wait _ => exact ⟨o, rfl, h'⟩
  | @frame b n out rest hv _ ih =>
    have hn := F.frame_le hv
    cases h' with
    | wait hv' => simp [F.frame_append hv y] at hv'
    | frame hv' h' =>
      rw [F.frame_append hv y, Verdict.frame.injEq] at hv'
      subst hv'
      rw [List.drop_append_of_le_length hn] at h'
      obtain ⟨o₂, rfl, h₂⟩ := ih (clean_frame_cons.1 hc) h'
      exact ⟨o₂, by rw [List.take_append_of_le_length hn]; rfl, h₂⟩
    | reject hv' => simp [F.frame_append hv y] at hv'
  | reject _ => exact absurd hc (not_clean_dropped (l := []))

theorem not_comes {b : List β} {o : List (Segment β)} {r : List β} (h : Drains F b o r) :
    ¬ Comes F (fun b => F.verdict b = .frame 0) b := by
  intro hc
  induction h with
  | wait hv => cases hc <;> simp_all
  | frame hv hd ih =>
    cases hc with
    | here h0 => exact (Drains.frame hv hd).frame_ne_zero h0
    | next hv' hc =>
      rw [hv, Verdict.frame.injEq] at hv'
      subst hv'
      exact ih hc
  | reject hv => cases hc <;> simp_all

/-- Where no frame it cuts is empty, the framer gets to the end. -/
theorem of_not_comes (b : List β) (h : ¬ Comes F (fun b => F.verdict b = .frame 0) b) :
    ∃ o r, Drains F b o r := by
  rcases hv : F.verdict b with _ | n | _
  · exact ⟨[], b, .wait hv⟩
  · have hpos : n ≠ 0 := by
      rintro rfl
      exact h (.here hv)
    have hle := F.frame_le hv
    obtain ⟨o, r, hd⟩ := of_not_comes (b.drop n) fun hc => h (.next hv hc)
    exact ⟨_, r, .frame hv hd⟩
  · exact ⟨_, [], .reject hv⟩
termination_by b.length
decreasing_by
  rw [List.length_drop]
  omega

end Drains

namespace Feeds

theorem bytes {b : List β} {cs : List (List β)} {o : List (Segment β)} {r : List β}
    (h : Feeds F b cs o r) : (o.map Segment.bytes).flatten ++ r = b ++ cs.flatten := by
  induction h with
  | nil b => simp
  | cons hd _ ih =>
    rw [List.map_append, List.flatten_append, List.append_assoc, ih, ← List.append_assoc, hd.bytes,
      List.flatten_cons, List.append_assoc]

/-- Each segment of a feed is made of the stream where the ones before it end. -/
theorem decided {b : List β} {cs : List (List β)} {o : List (Segment β)} {r : List β}
    (h : Feeds F b cs o r) : ∀ {pre : List (Segment β)} {s : Segment β} {post : List (Segment β)},
      o = pre ++ s :: post →
        Decided F ((b ++ cs.flatten).drop (pre.map Segment.bytes).flatten.length) s := by
  induction h with
  | nil _ => intro pre s post ho; simp at ho
  | @cons b c cs o o' r r' hd _ ih =>
    intro pre s post ho
    rw [List.flatten_cons, ← List.append_assoc]
    have hbytes := hd.bytes
    rcases List.append_eq_append_iff.1 ho with ⟨l, rfl, ho'⟩ | ⟨l, ho', hl⟩
    · -- the segment is made by a later call
      have hs := ih ho'
      rwa [List.map_append, List.flatten_append, List.length_append, ← hbytes, List.append_assoc,
        List.drop_length_add_append]
    · rcases l with _ | ⟨s', l⟩
      · have hs := @ih [] s post (by simpa using hl.symm)
        rw [List.append_nil] at ho'
        subst ho'
        rwa [← hbytes, List.append_assoc, List.drop_left]
      · obtain ⟨rfl, -⟩ := List.cons_eq_cons.1 hl
        have hle : (pre.map Segment.bytes).flatten.length ≤ (b ++ c).length := by
          rw [← hbytes, ho', List.map_append, List.flatten_append, List.append_assoc,
            List.length_append]
          exact Nat.le_add_right _ _
        rw [List.drop_append_of_le_length hle]
        exact (hd.decided ho').append _

/-- What a feed does is what one drain of the whole stream does, up to the first rejection: the
frames before it agree, one meets a rejection if and only if the other does, and without one they
agree in everything. -/
theorem drains_flatten {b : List β} {cs : List (List β)} {o : List (Segment β)} {r : List β}
    (h : Feeds F b cs o r) (hb : F.verdict b = .wait) :
    ∃ o' r', Drains F (b ++ cs.flatten) o' r' ∧ lead o' = lead o ∧ (Clean o' ↔ Clean o)
      ∧ (Clean o → o' = o ∧ r' = r) := by
  induction h with
  | nil b => exact ⟨[], b, by simpa using Drains.wait hb, rfl, Iff.rfl, fun _ => ⟨rfl, rfl⟩⟩
  | @cons b c cs o o' r r' hd _ ih =>
    obtain ⟨o₁, r₁, h₁, hlead, hclean, heq⟩ := ih hd.rest_wait
    rw [List.flatten_cons, ← List.append_assoc]
    rcases hd.clean_or_dropped with hc | ⟨fs, d, rfl, hfs, rfl⟩
    · refine ⟨o ++ o₁, r₁, hd.append hc h₁, by rw [lead_append hc, lead_append hc, hlead],
        by simp only [clean_append, hc, hclean], fun ho => ?_⟩
      obtain ⟨rfl, rfl⟩ := heq (clean_append.1 ho).2
      exact ⟨rfl, rfl⟩
    · have hno : ¬ Clean (fs ++ [Segment.dropped d] ++ o') :=
        fun h => not_clean_dropped (clean_append.1 h).1
      refine ⟨_, [], hd.append_dropped rfl cs.flatten, ?_, iff_of_false not_clean_dropped hno,
        fun h => absurd h hno⟩
      rw [List.append_assoc, lead_append hfs, lead_append hfs]
      rfl

/-- Two feeds of the same stream, however it is cut, agree up to the first rejection. -/
theorem agree {b : List β} {cs cs' : List (List β)} {o o' : List (Segment β)} {r r' : List β}
    (h : Feeds F b cs o r) (h' : Feeds F b cs' o' r') (hb : F.verdict b = .wait)
    (hcs : cs.flatten = cs'.flatten) :
    lead o = lead o' ∧ (Clean o ↔ Clean o') ∧ (Clean o → o = o' ∧ r = r') := by
  obtain ⟨o₁, r₁, h₁, hlead, hclean, heq⟩ := h.drains_flatten hb
  obtain ⟨o₂, r₂, h₂, hlead', hclean', heq'⟩ := h'.drains_flatten hb
  rw [← hcs] at h₂
  obtain ⟨rfl, rfl⟩ := h₁.unique h₂
  refine ⟨hlead.symm.trans hlead', hclean.symm.trans hclean', fun hc => ?_⟩
  obtain ⟨rfl, rfl⟩ := heq hc
  exact heq' (hclean'.1 (hclean.2 hc))

/-- A clean drain of the whole stream can be fed in any chunks. -/
theorem of_drains : ∀ {cs : List (List β)} {b : List β} {o : List (Segment β)} {r : List β},
    F.verdict b = .wait → Drains F (b ++ cs.flatten) o r → Clean o →
      (∀ pre post, cs = pre ++ post → ∃ o₁ r₁, Drains F (b ++ pre.flatten) o₁ r₁) →
        Feeds F b cs o r
  | [], b, o, r, hb, hd, _, _ => by
    rw [List.flatten_nil, List.append_nil] at hd
    obtain ⟨rfl, rfl⟩ := hd.unique (.wait hb)
    exact nil _
  | c :: cs, b, o, r, hb, hd, hc, hpre => by
    obtain ⟨o₁, r₁, h₁⟩ := hpre [c] cs rfl
    rw [List.flatten_cons, List.flatten_nil, List.append_nil] at h₁
    rw [List.flatten_cons, ← List.append_assoc] at hd
    rcases h₁.clean_or_dropped with hc₁ | ⟨fs, d, rfl, -, rfl⟩
    · obtain ⟨o₂, rfl, h₂⟩ := h₁.split hc₁ hd
      refine cons h₁ (of_drains h₁.rest_wait h₂ (clean_append.1 hc).2 fun pre post hp => ?_)
      obtain ⟨o₃, r₃, h₃⟩ := hpre (c :: pre) post (by rw [hp]; rfl)
      rw [List.flatten_cons, ← List.append_assoc] at h₃
      obtain ⟨o₄, -, h₄⟩ := h₁.split hc₁ h₃
      exact ⟨o₄, r₃, h₄⟩
    · obtain ⟨rfl, -⟩ := hd.unique (h₁.append_dropped rfl _)
      exact absurd hc not_clean_dropped

end Feeds

end Framing
