import HookGuard.Console.Administrators
import HookGuard.Console.AuditLog
import HookGuard.Console.Configuring
import HookGuard.Console.Csrf
import HookGuard.Console.Dashboard
import HookGuard.Console.Delivery
import HookGuard.Console.Flush
import HookGuard.Console.GatewayConfig
import HookGuard.Console.Guessing
import HookGuard.Console.Integrity
import HookGuard.Console.Isolation
import HookGuard.Console.LiveTail
import HookGuard.Console.LiveView
import HookGuard.Console.Liveness
import HookGuard.Console.LogFilter
import HookGuard.Console.LoginFailures
import HookGuard.Console.LoginRedirect
import HookGuard.Console.Migration
import HookGuard.Console.Pipeline
import HookGuard.Console.RateLimit
import HookGuard.Console.Resets
import HookGuard.Console.Retention
import HookGuard.Console.RetryAfter
import HookGuard.Console.Revocation
import HookGuard.Console.Secrecy
import HookGuard.Console.Seeding
import HookGuard.Console.ServedConfig
import HookGuard.Console.SessionLifetime
import HookGuard.Console.SignOut
import HookGuard.Console.Wire
import HookGuard.Core.GoDurationAgreement
import HookGuard.Core.GoTimestamp
import HookGuard.Core.StrictHex
import HookGuard.Gateway.App
import HookGuard.Gateway.CertTrust
import HookGuard.Gateway.Classification
import HookGuard.Gateway.Config
import HookGuard.Gateway.Emitter
import HookGuard.Gateway.ReplayWindow
import HookGuard.Gateway.StripeCandidates
import HookGuard.Oracle.Agreement
import HookGuard.Oracle.BodyHmac
import HookGuard.System.FeedDelivery
