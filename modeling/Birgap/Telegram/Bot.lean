import Birgap.Auth.Resend
import Birgap.Users.PhoneHash

/-!
# The Telegram bot

`TelegramBotService` and the processor of its queue. The webhook links the phone a user shares
to the chat it is shared in; a job sends the code of a phone to the chat the phone is linked to
and reports how that went.
-/
namespace Birgap.Telegram

set_option autoImplicit false

open Birgap.Auth Birgap.Common Birgap.Users.PhoneHash
open Birgap.Auth.Resend (TelegramOtpJobData)

structure BotConfig where
  botToken : Option String
  webhookSecret : Option String

/-- The bot exists once `onModuleInit` has found a token. -/
def enabled (cfg : BotConfig) : Bool := (truthy cfg.botToken).isSome

/-! ## The webhook -/

/-- The updates with a handler, and the rest. -/
inductive Update where
  | start (ctx : ContactContext)
  | contact (ctx : ContactContext) (contact : Contact)
  | other

def welcome : String :=
  "Welcome to BirGap 👋\n\nTap the button below to share your phone number so we can send you " ++
    "login codes here."

/-- `bot.handleUpdate`: the reply of the handler. -/
def handleUpdate (env : AuthEnv) (linkId : Id) (update : Update) (db : Db) :
    Except Err (Option String) × Db :=
  match update with
  | .start _ => (.ok (some welcome), db)
  | .contact ctx contact =>
      match onContact env linkId ctx contact db with
      | (.ok reply, db) => (.ok (some reply), db)
      | (.error e, db) => (.error e, db)
  | .other => (.ok none, db)

/-- The secret of the request is the configured one, if one is configured. -/
def authentic (cfg : BotConfig) (secretToken : Option String) : Bool :=
  match truthy cfg.webhookSecret with
  | none => true
  | some secret => secretToken == some secret

/-- `TelegramBotService.handleWebhook`. -/
def handleWebhook (cfg : BotConfig) (env : AuthEnv) (linkId : Id) (update : Update)
    (secretToken : Option String) (db : Db) : Except Err Bool × Db :=
  if !enabled cfg then (.ok false, db)
  else if !authentic cfg secretToken then (.ok false, db)
  else
    match handleUpdate env linkId update db with
    | (.ok _, db) => (.ok true, db)
    | (.error e, db) => (.error e, db)

/-! ## Sending a code -/

/-- A row of `SmsReport` as the bot writes it. -/
structure OtpReport where
  phoneHash : String
  type : String := "OTP"
  provider : String := "TELEGRAM"
  success : Bool
  error : Option String := none
  deriving DecidableEq

def successReport (phoneHash : String) : OtpReport := { phoneHash, success := true }

def failureReport (phoneHash error : String) : OtpReport :=
  { phoneHash, success := false, error := some error }

def codeMessage (code : String) : String :=
  "🔐 Your BirGap verification code: " ++ code ++ "\n\nDo not share this code with anyone."

structure SendOtpResult where
  success : Bool
  error : Option String := none
  deriving DecidableEq

/-- What Telegram answers to a message, and what the database answers to a report. -/
structure BotEnv where
  sendMessage : Int → String → Except String Unit
  createReport : OtpReport → Except String Unit

/-- The traces of an execution: a message with its acknowledgement, and the reports stored. -/
structure Outcome where
  message : Option (Int × String × Bool) := none
  reports : List OtpReport := []

def findLink (phoneHash : String) (db : Db) : Option TelegramLink :=
  db.telegramLinks.find? (·.phoneHash == phoneHash)

/-- The `catch` of `sendOtp`. -/
def reportFailure (bot : BotEnv) (phoneHash error : String)
    (message : Option (Int × String × Bool)) : Except String SendOtpResult × Outcome :=
  match bot.createReport (failureReport phoneHash error) with
  | .error e => (.error e, { message })
  | .ok () =>
      (.ok { success := false, error := some error },
       { message, reports := [failureReport phoneHash error] })

/-- `TelegramBotService.sendOtp`. A report of success that cannot be stored ends in the `catch`
although the message is out. -/
def sendOtp (cfg : BotConfig) (bot : BotEnv) (params : TelegramOtpJobData) (db : Db) :
    Except String SendOtpResult × Outcome :=
  if !enabled cfg then (.ok { success := false, error := some "Telegram bot not configured" }, {})
  else
    match findLink params.phoneHash db with
    | none => (.ok { success := false, error := some "No Telegram link for this phone" }, {})
    | some link =>
        let text := codeMessage params.code
        match bot.sendMessage link.chatId text with
        | .error e => reportFailure bot params.phoneHash e (some (link.chatId, text, false))
        | .ok () =>
            match bot.createReport (successReport params.phoneHash) with
            | .error e => reportFailure bot params.phoneHash e (some (link.chatId, text, true))
            | .ok () =>
                (.ok { success := true },
                 { message := some (link.chatId, text, true)
                   reports := [successReport params.phoneHash] })

/-- The error the processor throws. -/
def failReason : Except String SendOtpResult → Option String
  | .error e => some e
  | .ok result =>
      if result.success then none
      else some (result.error.getD "Telegram provider returned failure")

/-- `TelegramOtpProcessor.process`: the error the job fails with, none when it completes. -/
def process (cfg : BotConfig) (bot : BotEnv) (job : TelegramOtpJobData) (db : Db) :
    Option String × Outcome :=
  (failReason (sendOtp cfg bot job db).1, (sendOtp cfg bot job db).2)

end Birgap.Telegram
