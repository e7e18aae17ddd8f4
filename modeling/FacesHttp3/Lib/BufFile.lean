import Mathlib.Data.List.Basic

/-! # A file behind a write buffer

What was written is on disk or still in the buffer, in this order. A write, a
flush or a failure of either moves some of it; how much is the environment's
choice. -/

namespace FacesHttp3.Lib

structure BufFile (β : Type*) where
  disk : List β
  buf : List β

namespace BufFile
variable {β : Type*}

def content (file : BufFile β) : List β := file.disk ++ file.buf

/-- Move the first `moved` bytes of the buffer to the disk. -/
def spill (file : BufFile β) (moved : Nat) : BufFile β where
  disk := file.disk ++ file.buf.take moved
  buf := file.buf.drop moved

/-- Buffer more data and move some of it to the disk. -/
def push (file : BufFile β) (data : List β) (moved : Nat) : BufFile β :=
  spill { file with buf := file.buf ++ data } moved

/-- A complete flush. -/
def sync (file : BufFile β) : BufFile β := ⟨file.content, []⟩

@[simp] theorem content_mk (disk buf : List β) : content ⟨disk, buf⟩ = disk ++ buf := rfl

@[simp] theorem content_spill (file : BufFile β) (moved : Nat) :
    (file.spill moved).content = file.content := by
  simp [content, spill, List.append_assoc]

@[simp] theorem content_push (file : BufFile β) (data : List β) (moved : Nat) :
    (file.push data moved).content = file.content ++ data := by
  rw [push, content_spill]
  simp [content, List.append_assoc]

@[simp] theorem content_sync (file : BufFile β) : file.sync.content = file.content := by
  simp [sync]

@[simp] theorem buf_sync (file : BufFile β) : file.sync.buf = [] := rfl

theorem buf_spill_of_nil {file : BufFile β} (h : file.buf = []) (moved : Nat) :
    (file.spill moved).buf = [] := by simp [spill, h]

end BufFile
end FacesHttp3.Lib
