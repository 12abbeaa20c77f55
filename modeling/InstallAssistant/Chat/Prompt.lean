import InstallAssistant.Chat.Template
import InstallAssistant.Facts.Basic

/-!
# InstallAssistant.Chat.Prompt

The one way from a conversation to prompt text, for training and for answering
alike: a system turn with the rules and the facts goes first, then the turns.
-/

namespace InstallAssistant.Chat

/-! ## facts for conversations that have none -/

def typicalDisk : BlockDevice := ⟨"sda", "500G", "disk", none, none, "Samsung SSD 870", []⟩

/-- The machine that a conversation without facts is about. -/
def typicalFacts : Facts :=
  { uefi := true, network := true, hostname := some "archiso", devices := [typicalDisk] }

/-- The machine that evaluation queries are about. -/
def evaluationFacts : Facts :=
  { typicalFacts with
    devices := [typicalDisk, ⟨"sdb", "1T", "disk", none, none, "WD Blue HDD", []⟩] }

/-! ## the system prompt -/

def rules : String :=
  Text.join "\n" [
    "RULES:",
    "1. When the user wants something DONE (list, partition, format, mount, create, set, " ++
      "install), call run_shell_command.",
    "2. When the user CONFIRMS a pending action (yes, ok, go ahead, do it), run that command " ++
      "via run_shell_command.",
    "3. When the user asks a QUESTION (what is, how do I, should I, explain), answer in text.",
    "",
    "COMMANDS:",
    "- List disks: lsblk",
    "- Partition disk: sgdisk -Z /dev/X && sgdisk -n 1:0:+512M -t 1:ef00 -n 2:0:0 /dev/X",
    "- Format EFI: mkfs.fat -F32 /dev/X1",
    "- Format root: mkfs.ext4 /dev/X2",
    "- Mount root: mount /dev/X2 /mnt",
    "- Mount EFI: mkdir -p /mnt/boot/efi && mount /dev/X1 /mnt/boot/efi",
    "- Set hostname: hostnamectl set-hostname NAME",
    "- Set timezone: timedatectl set-timezone ZONE",
    "- Create user: useradd -m -G wheel NAME",
    "- Install bootloader: grub-install --target=x86_64-efi --efi-directory=/boot/efi",
    "",
    "Only mention disks listed in the system state above. Never invent device names."]

/-- The system prompt around a facts block. -/
def systemPrompt (context : String) : String :=
  "You are the installation assistant for this operating system. " ++
    "Help the user install it on their machine.\n\n" ++ Text.trim context ++ "\n\n" ++ rules

/-! ## prompts -/

/-- A template with the tools that go into every text it renders. -/
structure Prompter where
  template : Template
  tools : List Json

namespace Prompter

/-- The conversation with the system prompt as its first turn. -/
def prepare (c : Conversation) : Conversation :=
  c.withLeading ⟨.system, systemPrompt (c.context.getD typicalFacts.context)⟩

/-- The text up to the head of the reply. -/
def prompt (p : Prompter) (c : Conversation) : Except Fault String :=
  p.template.render (prepare c).turns p.tools true

/-- The text with `target` as the reply. -/
def full (p : Prompter) (c : Conversation) (target : String) : Except Fault String :=
  p.template.render ((prepare c).withTrailing ⟨.assistant, target⟩).turns p.tools false

end Prompter

end InstallAssistant.Chat
