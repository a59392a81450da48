import NotiService.Templates
import NotiService.Foundation.Markup

/-! The HTML templates. A page is its pieces in order: the text of the file, and what is
printed into it. What a template prints is escaped, since its name ends in `html.tera`. A
page that extends `base.html.tera` is the base with its blocks replaced. -/

namespace NotiService
open Foundation Markup

/-- What stands in an HTML template: text, `{{ name }}`, `{{ name | default(value=…) }}`, a
literal printed by a macro, and `{% if name %}…{{ name }}…{% else %}…{% endif %}`. -/
inductive Piece where
  | text (s : Literal)
  | var (name : String)
  | orDefault (name value : String)
  | quoted (s : Literal)
  | given (name : String) (before after otherwise : Literal)

inductive Block where
  | subject | extraStyles | preheader | headerBg | headerGradient | title | subtitle | content

namespace HtmlTemplates

def html (s : String) {l : List Char} (h : s = String.ofList l := by rfl) : Piece :=
  .text ⟨s, l, h⟩

def quoted (s : String) {l : List Char} (h : s = String.ofList l := by rfl) : Piece :=
  .quoted ⟨s, l, h⟩

def given (name before after otherwise : String) {b a o : List Char}
    (hb : before = String.ofList b := by rfl) (ha : after = String.ofList a := by rfl)
    (ho : otherwise = String.ofList o := by rfl) : Piece :=
  .given name ⟨before, b, hb⟩ ⟨after, a, ha⟩ ⟨otherwise, o, ho⟩

def primary : Piece := quoted "#7b63f1"

def primaryGradient : Piece := quoted "linear-gradient(135deg, #7b63f1 0%, #a899f4 100%)"

def button (url label bg gradient : Piece) : List Piece :=
  [html "\n<table role=\"presentation\" width=\"100%\" cellpadding=\"0\" cellspacing=\"0\">\n",
   html "    <tr>\n        <td align=\"center\" style=\"padding: 8px 0 24px;\">\n",
   html "            <a href=\"", url, html "\" class=\"btn\" bgcolor=\"", bg,
   html "\"\n               style=\"background-color: ", bg, html "; background: ", gradient,
   html ";\">", label, html "</a>\n        </td>\n    </tr>\n</table>\n"]

def linkFallback (url accent : Piece) : List Piece :=
  [html "\n<p class=\"muted\" style=\"margin-bottom: 8px;\">\n",
   html "    If the button doesn't work, copy and paste this link into your browser:\n</p>\n",
   html "<div class=\"link-fallback\"><a href=\"", url, html "\" style=\"color: ", accent,
   html "; text-decoration: none;\">", url, html "</a></div>\n"]

def listRow (icon text : Piece) : List Piece :=
  [html "\n<tr>\n    <td width=\"26\" style=\"vertical-align: middle;\">\n",
   html "        <div class=\"list-icon\" style=\"line-height: 26px;\">", icon,
   html "</div>\n    </td>\n    <td class=\"list-text\">", text, html "</td>\n</tr>\n"]

def base (blocks : Block → Option (List Piece)) : List Piece :=
  [html "<!DOCTYPE html>\n<html lang=\"en\">\n<head>\n    <meta charset=\"UTF-8\">\n",
   html "    <meta name=\"viewport\" content=\"width=device-width, initial-scale=1.0\">\n",
   html "    <meta name=\"color-scheme\" content=\"light\">\n",
   html "    <meta name=\"supported-color-schemes\" content=\"light\">\n    <title>"] ++
  (blocks .subject).getD [html "GridTokenX"] ++
  [html "</title>\n    <style>\n        /* Design tokens mirror the Trading UI ",
   html "(gridtokenx-trading app/globals.css,\n           light-purple theme): primary ",
   html "#7b63f1, gradient #7b63f1 → #a899f4,\n           foreground #17161b, secondary bg ",
   html "#f4f6f9, border #d1d8df, radius 8px,\n           font TikTok Sans. Layout is ",
   html "table-based for broad email-client support\n",
   html "           (Outlook has no flexbox / CSS counters); the <style> block is\n",
   html "           progressive enhancement — load-bearing colors are repeated as\n",
   html "           bgcolor attributes. */\n        @import ",
   html "url('https://fonts.googleapis.com/css2?family=TikTok+Sans:opsz,wght@12..36,300..900&",
   html "display=swap');\n        body \x7b\n            margin: 0;\n",
   html "            padding: 0;\n            width: 100%;\n",
   html "            font-family: 'TikTok Sans', -apple-system, BlinkMacSystemFont, 'Segoe ",
   html "UI', Roboto, 'Helvetica Neue', Arial, sans-serif;\n",
   html "            background-color: #f4f6f9;\n            color: #17161b;\n",
   html "            line-height: 1.6;\n            -webkit-text-size-adjust: 100%;\n",
   html "        \x7d\n        table \x7b\n            border-collapse: collapse;\n",
   html "        \x7d\n        img \x7b\n            border: 0;\n",
   html "            max-width: 100%;\n        \x7d\n        .preheader \x7b\n",
   html "            display: none;\n            max-height: 0;\n",
   html "            overflow: hidden;\n            font-size: 1px;\n",
   html "            line-height: 1px;\n            color: #f4f6f9;\n        \x7d\n",
   html "        .email-container \x7b\n            width: 600px;\n",
   html "            max-width: 600px;\n            background-color: #ffffff;\n",
   html "            border: 1px solid #d1d8df;\n            border-radius: 8px;\n",
   html "            overflow: hidden;\n        \x7d\n        .email-header \x7b\n",
   html "            padding: 36px 40px 32px;\n            text-align: center;\n",
   html "        \x7d\n        .brand-mark \x7b\n            margin: 0 0 14px;\n",
   html "            font-size: 13px;\n            font-weight: 700;\n",
   html "            letter-spacing: 2px;\n            text-transform: uppercase;\n",
   html "            color: rgba(255, 255, 255, 0.85);\n        \x7d\n",
   html "        .email-header h1 \x7b\n            margin: 0;\n            color: #ffffff;\n",
   html "            font-size: 26px;\n            font-weight: 700;\n",
   html "            letter-spacing: -0.3px;\n        \x7d\n",
   html "        .email-header .subtitle \x7b\n            margin: 10px 0 0;\n",
   html "            color: rgba(255, 255, 255, 0.88);\n            font-size: 15px;\n",
   html "        \x7d\n        .email-body \x7b\n            padding: 40px;\n        \x7d\n",
   html "        .email-body p \x7b\n            margin: 0 0 20px;\n",
   html "            font-size: 16px;\n            color: #333333;\n        \x7d\n",
   html "        .section-label \x7b\n            margin: 0 0 12px;\n",
   html "            font-size: 13px;\n            font-weight: 700;\n",
   html "            letter-spacing: 1px;\n            text-transform: uppercase;\n",
   html "            color: #7b63f1;\n        \x7d\n        .btn \x7b\n",
   html "            display: inline-block;\n            padding: 14px 36px;\n",
   html "            color: #ffffff !important;\n            text-decoration: none;\n",
   html "            border-radius: 8px;\n            font-size: 16px;\n",
   html "            font-weight: 600;\n            text-align: center;\n        \x7d\n",
   html "        .link-fallback \x7b\n            margin: 0;\n",
   html "            padding: 14px 16px;\n            background-color: #f4f6f9;\n",
   html "            border: 1px solid #d1d8df;\n            border-radius: 8px;\n",
   html "            font-size: 13px;\n            color: #808693;\n",
   html "            word-break: break-all;\n        \x7d\n        .divider \x7b\n",
   html "            height: 1px;\n            line-height: 1px;\n            font-size: 0;\n",
   html "            background-color: #d1d8df;\n        \x7d\n        .muted \x7b\n",
   html "            font-size: 14px;\n            color: #808693;\n        \x7d\n",
   html "        /* Informational callouts */\n        .box \x7b\n",
   html "            border-radius: 8px;\n            padding: 14px 16px;\n",
   html "            font-size: 13px;\n        \x7d\n        .box p \x7b\n",
   html "            margin: 0;\n            font-size: 13px;\n        \x7d\n",
   html "        .box-info \x7b\n            background-color: #f4f2fe;\n",
   html "            border: 1px solid #e5ddff;\n            color: #4c3daf;\n        \x7d\n",
   html "        .box-info p \x7b color: #4c3daf; \x7d\n        .box-warn \x7b\n",
   html "            background-color: #fffbeb;\n            border: 1px solid #fde68a;\n",
   html "            border-left: 4px solid #f1c40f;\n            color: #92400e;\n",
   html "        \x7d\n        .box-warn p \x7b color: #92400e; \x7d\n",
   html "        /* Icon-bullet lists (rendered as table rows, not flex) */\n",
   html "        .list-icon \x7b\n            width: 26px;\n            height: 26px;\n",
   html "            border-radius: 50%;\n            background-color: #e5ddff;\n",
   html "            color: #7b63f1;\n            font-size: 13px;\n",
   html "            font-weight: 700;\n            text-align: center;\n",
   html "            vertical-align: middle;\n        \x7d\n        .list-text \x7b\n",
   html "            padding: 7px 0 7px 12px;\n            font-size: 15px;\n",
   html "            color: #333333;\n        \x7d\n        .email-footer \x7b\n",
   html "            padding: 26px 40px;\n            background-color: #f4f6f9;\n",
   html "            border-top: 1px solid #d1d8df;\n            text-align: center;\n",
   html "        \x7d\n        .email-footer p \x7b\n            margin: 0;\n",
   html "            font-size: 13px;\n            color: #808693;\n        \x7d\n",
   html "        .email-footer .brand \x7b\n            font-weight: 700;\n",
   html "            color: #7b63f1;\n        \x7d\n        @media only screen and ",
   html "(max-width: 620px) \x7b\n            .email-container \x7b\n",
   html "                width: 100% !important;\n                border-radius: 0 ",
   html "!important;\n            \x7d\n            .email-header,\n",
   html "            .email-body,\n            .email-footer \x7b\n",
   html "                padding-left: 24px !important;\n",
   html "                padding-right: 24px !important;\n            \x7d\n",
   html "            .btn \x7b\n                display: block !important;\n",
   html "            \x7d\n        \x7d\n        "] ++
  (blocks .extraStyles).getD [] ++
  [html "\n    </style>\n</head>\n<body>\n    <div class=\"preheader\">"] ++
  (blocks .preheader).getD [] ++
  [html "</div>\n    <table role=\"presentation\" width=\"100%\" cellpadding=\"0\" ",
   html "cellspacing=\"0\" bgcolor=\"#f4f6f9\">\n        <tr>\n",
   html "            <td align=\"center\" style=\"padding: 40px 16px;\">\n",
   html "                <table role=\"presentation\" class=\"email-container\" ",
   html "width=\"600\" cellpadding=\"0\" cellspacing=\"0\" bgcolor=\"#ffffff\">\n",
   html "                    <tr>\n                        <td class=\"email-header\" ",
   html "bgcolor=\""] ++
  (blocks .headerBg).getD [html "#7b63f1"] ++
  [html "\"\n                            style=\"background: "] ++
  (blocks .headerGradient).getD [html "linear-gradient(135deg, #7b63f1 0%, #a899f4 100%)"] ++
  [html ";\">\n                            <p class=\"brand-mark\">&#9889; GridTokenX</p>\n",
   html "                            <h1>"] ++
  (blocks .title).getD [html "GridTokenX"] ++
  [html "</h1>\n                            <p class=\"subtitle\">"] ++
  (blocks .subtitle).getD [] ++
  [html "</p>\n                        </td>\n                    </tr>\n",
   html "                    <tr>\n                        <td class=\"email-body\">\n",
   html "                            "] ++
  (blocks .content).getD [] ++
  [html "\n                        </td>\n                    </tr>\n",
   html "                    <tr>\n                        <td class=\"email-footer\">\n",
   html "                            <p>&copy; 2026 <span class=\"brand\">GridTokenX</span>. ",
   html "All rights reserved.</p>\n                            <p style=\"margin-top: 8px;\">",
   html "This is an automated message. Please do not reply to this email.</p>\n",
   html "                        </td>\n                    </tr>\n                </table>\n",
   html "            </td>\n        </tr>\n    </table>\n</body>\n</html>\n"]

def accountLocked : List Piece := base fun
  | .subject => some [html "Your GridTokenX account is temporarily locked"]
  | .preheader => some
    [html "Too many failed sign-in attempts — your account is locked for a short period."]
  | .title => some [html "Account Temporarily Locked"]
  | .subtitle => some [html "GridTokenX Account Security"]
  | .headerBg => some [html "#d97706"]
  | .headerGradient => some [html "linear-gradient(135deg, #f1c40f 0%, #d97706 100%)"]
  | .content => some
    [html "\n                <p>Hello,</p>\n                <p>\n",
     html "                    Your <strong>GridTokenX</strong> account\n",
     html "                    (<strong>", .var "identifier",
     html "</strong>) has been temporarily locked\n                    after too many failed ",
     html "sign-in attempts.\n                </p>\n\n                <div class=\"box ",
     html "box-warn\" style=\"margin-top: 8px;\">\n                    <p>\n",
     html "                        You can sign in again in about\n",
     html "                        <strong>", .var "lockout_minutes",
     html " minute(s)</strong>.\n                        No further action is needed if this ",
     html "was you.\n                    </p>\n                </div>\n\n",
     html "                <p style=\"margin-top: 24px;\">\n",
     html "                    If this was <strong>not</strong> you, someone may be trying to\n",
     html "                    access your account. Reset your password as soon as the lock\n",
     html "                    expires, and contact support if the attempts continue.\n",
     html "                </p>\n"]
  | _ => none

def confirmWallet : List Piece := base fun
  | .subject => some [html "Confirm your wallet to link it on-chain"]
  | .preheader => some [html "Confirm this Solana wallet is yours to register the link on-chain."]
  | .title => some [html "Confirm Your Wallet"]
  | .subtitle => some [html "One click to link your Solana wallet on-chain"]
  | .extraStyles => some
    [html "\n        .wallet-chip \x7b\n            background-color: #f4f2fe;\n",
     html "            border: 1px solid #e5ddff;\n            border-radius: 8px;\n",
     html "        \x7d\n        .wallet-chip td \x7b\n            padding: 14px 16px;\n",
     html "            font-size: 13px;\n            color: #4c3daf;\n",
     html "            word-break: break-all;\n            font-family: 'SF Mono', 'Menlo', ",
     html "'Consolas', monospace;\n        \x7d\n        .wallet-chip .chip-label \x7b\n",
     html "            display: block;\n            margin-bottom: 4px;\n",
     html "            font-family: 'TikTok Sans', -apple-system, BlinkMacSystemFont, 'Segoe ",
     html "UI', Roboto, sans-serif;\n            font-size: 11px;\n",
     html "            font-weight: 700;\n            letter-spacing: 1px;\n",
     html "            text-transform: uppercase;\n            color: #7b63f1;\n        \x7d\n"]
  | .content => some (
    [html "\n                <p>Hello", given "name" " <strong>" "</strong>" "",
     html ",</p>\n                <p>\n                    A Solana wallet is being linked to ",
     html "your <strong>GridTokenX</strong>\n                    account. To finish, confirm ",
     html "that this wallet is yours — we'll then\n                    register the link ",
     html "on-chain so you can settle trades from it.\n                </p>\n\n",
     html "                <table role=\"presentation\" class=\"wallet-chip\" width=\"100%\" ",
     html "cellpadding=\"0\" cellspacing=\"0\" bgcolor=\"#f4f2fe\" style=\"margin-bottom: 28px;",
     html "\">\n                    <tr>\n                        <td>\n",
     html "                            <span class=\"chip-label\">Wallet address</span>\n",
     html "                            ", .var "wallet_address",
     html "\n                        </td>\n                    </tr>\n",
     html "                </table>\n\n                "] ++
    button (.var "confirmation_url") (quoted "✓ Confirm My Wallet") primary primaryGradient ++
    [html "\n                <p class=\"muted\" style=\"text-align: center; margin-top: -12px;",
     html "\">\n                    This link expires in 30 minutes.\n                </p>\n\n",
     html "                <div class=\"divider\" style=\"margin: 24px 0;\">&nbsp;</div>\n",
     html "                "] ++
    linkFallback (.var "confirmation_url") primary ++
    [html "\n\n                <p class=\"muted\" style=\"margin-top: 24px; margin-bottom: 0;",
     html "\">\n                    If you didn't request this, ignore this email — the wallet ",
     html "stays unlinked\n                    and is never registered on-chain.\n",
     html "                </p>\n"])
  | _ => none

def ercIssued : List Piece := base fun
  | .subject => some [html "New Renewable Energy Certificate issued"]
  | .preheader => some [html "Your renewable energy contribution was certified on-chain."]
  | .title => some [html "New Certificate Issued!"]
  | .subtitle => some [html "Renewable Energy Certificate (ERC)"]
  | .headerBg => some [html "#00a544"]
  | .headerGradient => some [html "linear-gradient(135deg, #00c951 0%, #00a544 100%)"]
  | .extraStyles => some
    [html "\n        .certificate-card \x7b\n            background-color: #ecfdf3;\n",
     html "            border: 2px solid #a7f3c9;\n            border-radius: 8px;\n",
     html "        \x7d\n        .certificate-card td \x7b\n            padding: 28px;\n",
     html "            text-align: center;\n        \x7d\n",
     html "        .certificate-card .amount \x7b\n            margin: 0;\n",
     html "            font-size: 38px;\n            font-weight: 700;\n",
     html "            color: #00a544;\n            letter-spacing: -0.5px;\n        \x7d\n",
     html "        .certificate-card .unit \x7b\n            margin: 4px 0 0;\n",
     html "            font-size: 14px;\n            color: #047847;\n        \x7d\n",
     html "        .certificate-card .label \x7b\n            margin: 12px 0 0;\n",
     html "            font-size: 12px;\n            font-weight: 700;\n",
     html "            color: #065f39;\n            text-transform: uppercase;\n",
     html "            letter-spacing: 1.5px;\n        \x7d\n"]
  | .content => some
    [html "\n                <p>Congratulations!</p>\n                <p>\n",
     html "                    Your contribution to the green grid has been recorded. A new\n",
     html "                    <strong>Renewable Energy Certificate (ERC)</strong> has been ",
     html "issued to your account.\n                </p>\n\n",
     html "                <table role=\"presentation\" class=\"certificate-card\" ",
     html "width=\"100%\" cellpadding=\"0\" cellspacing=\"0\" bgcolor=\"#ecfdf3\" ",
     html "style=\"margin-bottom: 24px;\">\n                    <tr>\n",
     html "                        <td>\n                            <p class=\"amount\">",
     .var "amount", html "</p>\n                            <p class=\"unit\">",
     .orDefault "unit" "MWh",
     html "</p>\n                            <p class=\"label\">Energy Certified</p>\n",
     html "                        </td>\n                    </tr>\n                </table>\n",
     html "\n                <p class=\"muted\" style=\"text-align: center; margin-bottom: 0;",
     html "\">\n                    This certificate is verifiable on the Solana blockchain ",
     html "and represents\n                    your validated renewable energy contribution.\n",
     html "                </p>\n"]

def newLogin : List Piece :=
  [html "<!DOCTYPE html>\n<html lang=\"en\" ",
   html "xmlns:o=\"urn:schemas-microsoft-com:office:office\">\n<head>\n",
   html "<meta charset=\"utf-8\">\n<meta name=\"viewport\" ",
   html "content=\"width=device-width,initial-scale=1\">\n",
   html "<meta name=\"color-scheme\" content=\"light dark\">\n",
   html "<meta name=\"supported-color-schemes\" content=\"light dark\">\n\n",
   html "<title>New sign-in to your GridTokenX account</title>\n",
   html "<!--[if mso]><xml><o:OfficeDocumentSettings><o:PixelsPerInch>96</o:PixelsPerInch>",
   html "</o:OfficeDocumentSettings></xml><![endif]-->\n<style>\n",
   html "  @media only screen and (max-width:620px)\x7b\n",
   html "    .wrap\x7bwidth:100% !important\x7d\n    .pad\x7bpadding-left:24px !important;",
   html "padding-right:24px !important\x7d\n    .h1\x7bfont-size:34px !important;",
   html "line-height:38px !important\x7d\n    .lbl\x7bdisplay:block !important;width:100% ",
   html "!important;padding-bottom:0 !important\x7d\n",
   html "    .val\x7bdisplay:block !important;width:100% !important;padding-top:2px ",
   html "!important\x7d\n  \x7d\n</style>\n</head>\n<body style=\"margin:0;padding:0;",
   html "background:#f3f2f2;\">\n<span style=\"display:none!important;visibility:hidden;",
   html "opacity:0;height:0;width:0;overflow:hidden;mso-hide:all;font-size:1px;",
   html "line-height:1px;color:#f3f2f2;\">A new sign-in from ",
   given "device" "" "" "an unrecognised device",
   html ". If this wasn't you, secure your account now.</span>\n",
   html "<table role=\"presentation\" cellpadding=\"0\" cellspacing=\"0\" border=\"0\" ",
   html "width=\"100%\" style=\"background:#f3f2f2;\">\n",
   html "<tr><td align=\"center\" style=\"padding:32px 12px;\">\n\n",
   html "<table role=\"presentation\" class=\"wrap\" cellpadding=\"0\" cellspacing=\"0\" ",
   html "border=\"0\" width=\"600\" style=\"width:600px;background:#ffffff;border:2px solid ",
   html "#201e1d;\">\n\n  <!-- masthead -->\n  <tr><td class=\"pad\" style=\"padding:16px ",
   html "40px;border-bottom:2px solid #201e1d;\">\n    <table role=\"presentation\" ",
   html "cellpadding=\"0\" cellspacing=\"0\" border=\"0\"><tr>\n",
   html "      <td width=\"28\" height=\"28\" align=\"center\" valign=\"middle\" ",
   html "bgcolor=\"#ec3013\" style=\"width:28px;height:28px;background:#ec3013;",
   html "font-family:Arial,Helvetica,sans-serif;font-size:13px;line-height:28px;",
   html "mso-line-height-rule:exactly;font-weight:bold;letter-spacing:0.5px;color:#ffffff;",
   html "text-align:center;\">GX</td>\n      <td style=\"padding-left:12px;",
   html "font-family:Arial,Helvetica,sans-serif;font-size:12px;line-height:14px;",
   html "mso-line-height-rule:exactly;letter-spacing:1.6px;text-transform:uppercase;",
   html "color:#201e1d;font-weight:bold;\">GridToken<span style=\"color:#ec3013;\">X</span>",
   html "<span style=\"color:#8a8785;font-weight:normal;letter-spacing:1.4px;\">&nbsp;&nbsp;",
   html "/&nbsp;&nbsp;Security alert</span></td>\n    </tr></table>\n  </td></tr>\n\n",
   html "  <!-- title -->\n  <tr><td class=\"pad\" style=\"padding:44px 40px 36px 40px;",
   html "border-bottom:2px solid #201e1d;\">\n    <table role=\"presentation\" ",
   html "cellpadding=\"0\" cellspacing=\"0\" border=\"0\" width=\"100%\">\n",
   html "      <tr><td style=\"font-family:Arial,Helvetica,sans-serif;font-size:12px;",
   html "line-height:14px;mso-line-height-rule:exactly;letter-spacing:1.6px;",
   html "text-transform:uppercase;font-weight:bold;color:#ec3013;padding-bottom:16px;\">New ",
   html "sign-in detected</td></tr>\n      <tr><td class=\"h1\" ",
   html "style=\"font-family:Arial,Helvetica,sans-serif;font-size:40px;line-height:44px;",
   html "mso-line-height-rule:exactly;font-weight:bold;letter-spacing:-1.2px;color:#201e1d;",
   html "\">Was this you?</td></tr>\n      <tr><td height=\"16\" style=\"height:16px;",
   html "line-height:16px;font-size:0;\">&nbsp;</td></tr>\n",
   html "      <tr><td style=\"font-family:Arial,Helvetica,sans-serif;font-size:16px;",
   html "line-height:24px;mso-line-height-rule:exactly;color:#514e4c;\">\n        \n",
   html "        Hello <strong style=\"color:#201e1d;\">", given "username" "" "" "there",
   html "</strong> &mdash; your GridTokenX account was just signed in to from a device we ",
   html "haven't seen before. Details below.\n      </td></tr>\n    </table>\n  </td></tr>\n",
   html "\n  <!-- sign-in details -->\n  <tr><td class=\"pad\" style=\"padding:0 40px;",
   html "border-bottom:2px solid #201e1d;\">\n    <table role=\"presentation\" ",
   html "cellpadding=\"0\" cellspacing=\"0\" border=\"0\" width=\"100%\" style=\"margin:32px ",
   html "0;border-top:2px solid #201e1d;border-bottom:2px solid #201e1d;\">\n      <tr>\n",
   html "        <td class=\"lbl\" width=\"150\" valign=\"top\" style=\"width:150px;",
   html "padding:14px 16px 14px 0;font-family:Arial,Helvetica,sans-serif;font-size:11px;",
   html "line-height:16px;mso-line-height-rule:exactly;letter-spacing:1.4px;",
   html "text-transform:uppercase;color:#8a8785;\">Time</td>\n",
   html "        <td class=\"val\" valign=\"top\" style=\"padding:14px 0;",
   html "font-family:Arial,Helvetica,sans-serif;font-size:15px;line-height:22px;",
   html "mso-line-height-rule:exactly;font-weight:bold;color:#201e1d;\">",
   given "timestamp" "" "" "&mdash;",
   html "</td>\n      </tr>\n      <tr>\n        <td class=\"lbl\" width=\"150\" ",
   html "valign=\"top\" style=\"width:150px;padding:14px 16px 14px 0;border-top:1px solid ",
   html "#d8d6d4;font-family:Arial,Helvetica,sans-serif;font-size:11px;line-height:16px;",
   html "mso-line-height-rule:exactly;letter-spacing:1.4px;text-transform:uppercase;",
   html "color:#8a8785;\">Device</td>\n        <td class=\"val\" valign=\"top\" ",
   html "style=\"padding:14px 0;border-top:1px solid #d8d6d4;",
   html "font-family:Arial,Helvetica,sans-serif;font-size:15px;line-height:22px;",
   html "mso-line-height-rule:exactly;font-weight:bold;color:#201e1d;\">",
   given "device" "" "" "Unknown device",
   html "</td>\n      </tr>\n      <tr>\n        <td class=\"lbl\" width=\"150\" ",
   html "valign=\"top\" style=\"width:150px;padding:14px 16px 14px 0;border-top:1px solid ",
   html "#d8d6d4;font-family:Arial,Helvetica,sans-serif;font-size:11px;line-height:16px;",
   html "mso-line-height-rule:exactly;letter-spacing:1.4px;text-transform:uppercase;",
   html "color:#8a8785;\">Location</td>\n        <td class=\"val\" valign=\"top\" ",
   html "style=\"padding:14px 0;border-top:1px solid #d8d6d4;",
   html "font-family:Arial,Helvetica,sans-serif;font-size:15px;line-height:22px;",
   html "mso-line-height-rule:exactly;font-weight:bold;color:#201e1d;\">",
   given "location" "" "" "Approximate location unavailable",
   html "</td>\n      </tr>\n      <tr>\n        <td class=\"lbl\" width=\"150\" ",
   html "valign=\"top\" style=\"width:150px;padding:14px 16px 14px 0;border-top:1px solid ",
   html "#d8d6d4;font-family:Arial,Helvetica,sans-serif;font-size:11px;line-height:16px;",
   html "mso-line-height-rule:exactly;letter-spacing:1.4px;text-transform:uppercase;",
   html "color:#8a8785;\">IP address</td>\n        <td class=\"val\" valign=\"top\" ",
   html "style=\"padding:14px 0;border-top:1px solid #d8d6d4;",
   html "font-family:Arial,Helvetica,sans-serif;font-size:15px;line-height:22px;",
   html "mso-line-height-rule:exactly;font-weight:bold;color:#201e1d;\">",
   given "ip_address" "" "" "&mdash;",
   html "</td>\n      </tr>\n    </table>\n  </td></tr>\n\n  <!-- recognise it -->\n",
   html "  <tr><td class=\"pad\" style=\"padding:28px 40px;background:#f3f2f2;",
   html "border-bottom:2px solid #201e1d;font-family:Arial,Helvetica,sans-serif;",
   html "font-size:15px;line-height:22px;mso-line-height-rule:exactly;color:#201e1d;\">\n",
   html "    <strong>Recognise this sign-in?</strong> No action needed &mdash; you can ",
   html "ignore this email.\n  </td></tr>\n\n  <!-- action -->\n",
   html "  <tr><td class=\"pad\" style=\"padding:36px 40px;border-bottom:2px solid #201e1d;",
   html "\">\n    <table role=\"presentation\" cellpadding=\"0\" cellspacing=\"0\" ",
   html "border=\"0\" width=\"100%\">\n      <tr><td ",
   html "style=\"font-family:Arial,Helvetica,sans-serif;font-size:12px;line-height:14px;",
   html "mso-line-height-rule:exactly;letter-spacing:1.6px;text-transform:uppercase;",
   html "font-weight:bold;color:#ec3013;padding-bottom:16px;\">Wasn't you?</td></tr>\n",
   html "      <tr><td style=\"font-family:Arial,Helvetica,sans-serif;font-size:15px;",
   html "line-height:22px;mso-line-height-rule:exactly;color:#514e4c;padding-bottom:22px;\">",
   html "\n        Secure the account immediately: reset your password, then review ",
   html "connected wallets and active sessions.\n      </td></tr>\n      <tr><td>\n",
   html "        <table role=\"presentation\" cellpadding=\"0\" cellspacing=\"0\" ",
   html "border=\"0\">\n          \n          <tr><td bgcolor=\"#ec3013\" ",
   html "style=\"background:#ec3013;border-radius:0;\">\n            <a href=\"",
   given "security_url" "" "" "http://trading.gridtokenx-coresystem.orb.local/security/sessions",
   html "\" style=\"display:block;padding:16px 34px;font-family:Arial,Helvetica,sans-serif;",
   html "font-size:15px;line-height:18px;mso-line-height-rule:exactly;font-weight:bold;",
   html "letter-spacing:0.6px;text-transform:uppercase;color:#ffffff;text-decoration:none;\">",
   html "Secure my account</a>\n          </td></tr>\n        </table>\n      </td></tr>\n",
   html "      <tr><td height=\"14\" style=\"height:14px;line-height:14px;font-size:0;\">",
   html "&nbsp;</td></tr>\n      <tr><td style=\"font-family:Arial,Helvetica,sans-serif;",
   html "font-size:13px;line-height:19px;mso-line-height-rule:exactly;color:#77736f;\">\n",
   html "        GridTokenX will never ask for your seed phrase or private keys by email.\n",
   html "      </td></tr>\n    </table>\n  </td></tr>\n\n  <!-- footer -->\n",
   html "  <tr><td class=\"pad\" style=\"padding:28px 40px 32px 40px;",
   html "font-family:Arial,Helvetica,sans-serif;font-size:12px;line-height:19px;",
   html "mso-line-height-rule:exactly;color:#8a8785;\">\n",
   html "    Security alerts are always sent and can't be turned off.<br><br>\n",
   html "    &copy; 2026 GridTokenX &middot; 1 Market Street, Suite 400, San Francisco, CA ",
   html "94105<br>\n    Automated message &mdash; please do not reply.\n  </td></tr>\n\n",
   html "</table>\n\n</td></tr>\n</table>\n</body>\n</html>\n"]

def passwordReset : List Piece := base fun
  | .subject => some [html "Reset your GridTokenX password"]
  | .preheader => some [html "Choose a new password for your GridTokenX account."]
  | .title => some [html "Reset Your Password"]
  | .subtitle => some [html "GridTokenX Account Recovery"]
  | .headerBg => some [html "#d97706"]
  | .headerGradient => some [html "linear-gradient(135deg, #f1c40f 0%, #d97706 100%)"]
  | .content => some (
    [html "\n                <p>Hello,</p>\n                <p>\n",
     html "                    We received a request to reset the password for your\n",
     html "                    <strong>GridTokenX</strong> account. Click the button below\n",
     html "                    to choose a new password:\n                </p>\n\n",
     html "                "] ++
    button (.var "reset_url") (quoted "Reset Password") (quoted "#d97706")
      (quoted "linear-gradient(135deg, #f1c40f 0%, #d97706 100%)") ++
    [html "\n\n                <div class=\"divider\" style=\"margin: 24px 0;\">&nbsp;</div>\n",
     html "                "] ++
    linkFallback (.var "reset_url") (quoted "#d97706") ++
    [html "\n\n                <div class=\"box box-warn\" style=\"margin-top: 24px;\">\n",
     html "                    <p>\n                        &#9888;&#65039; If you did not ",
     html "request a password reset, please ignore\n                        this email. Your ",
     html "password will remain unchanged.\n                    </p>\n                </div>\n"])
  | _ => none

def verifyEmail : List Piece :=
  [html "<!DOCTYPE html>\n<html lang=\"en\" ",
   html "xmlns:o=\"urn:schemas-microsoft-com:office:office\">\n<head>\n",
   html "<meta charset=\"utf-8\">\n<meta name=\"viewport\" ",
   html "content=\"width=device-width,initial-scale=1\">\n",
   html "<meta name=\"color-scheme\" content=\"light dark\">\n",
   html "<meta name=\"supported-color-schemes\" content=\"light dark\">\n\n",
   html "<title>Verify your email — GridTokenX</title>\n",
   html "<!--[if mso]><xml><o:OfficeDocumentSettings><o:PixelsPerInch>96</o:PixelsPerInch>",
   html "</o:OfficeDocumentSettings></xml><![endif]-->\n<style>\n",
   html "  @media only screen and (max-width:620px)\x7b\n",
   html "    .wrap\x7bwidth:100% !important\x7d\n    .pad\x7bpadding-left:24px !important;",
   html "padding-right:24px !important\x7d\n    .h1\x7bfont-size:34px !important;",
   html "line-height:38px !important\x7d\n  \x7d\n</style>\n</head>\n",
   html "<body style=\"margin:0;padding:0;background:#f3f2f2;\">\n",
   html "<span style=\"display:none!important;visibility:hidden;opacity:0;height:0;width:0;",
   html "overflow:hidden;mso-hide:all;font-size:1px;line-height:1px;color:#f3f2f2;\">Confirm ",
   html "this address to activate your GridTokenX account — one click, then you're signed ",
   html "in.</span>\n<table role=\"presentation\" cellpadding=\"0\" cellspacing=\"0\" ",
   html "border=\"0\" width=\"100%\" style=\"background:#f3f2f2;\">\n",
   html "<tr><td align=\"center\" style=\"padding:32px 12px;\">\n\n",
   html "<table role=\"presentation\" class=\"wrap\" cellpadding=\"0\" cellspacing=\"0\" ",
   html "border=\"0\" width=\"600\" style=\"width:600px;background:#ffffff;border:2px solid ",
   html "#201e1d;\">\n\n  <!-- masthead -->\n  <tr><td class=\"pad\" style=\"padding:16px ",
   html "40px;border-bottom:2px solid #201e1d;\">\n    <table role=\"presentation\" ",
   html "cellpadding=\"0\" cellspacing=\"0\" border=\"0\"><tr>\n",
   html "      <td width=\"28\" height=\"28\" align=\"center\" valign=\"middle\" ",
   html "bgcolor=\"#ec3013\" style=\"width:28px;height:28px;background:#ec3013;",
   html "font-family:Arial,Helvetica,sans-serif;font-size:13px;line-height:28px;",
   html "mso-line-height-rule:exactly;font-weight:bold;letter-spacing:0.5px;color:#ffffff;",
   html "text-align:center;\">GX</td>\n      <td style=\"padding-left:12px;",
   html "font-family:Arial,Helvetica,sans-serif;font-size:12px;line-height:14px;",
   html "mso-line-height-rule:exactly;letter-spacing:1.6px;text-transform:uppercase;",
   html "color:#201e1d;font-weight:bold;\">GridToken<span style=\"color:#ec3013;\">X</span>",
   html "<span style=\"color:#8a8785;font-weight:normal;letter-spacing:1.4px;\">&nbsp;&nbsp;",
   html "/&nbsp;&nbsp;Account verification</span></td>\n    </tr></table>\n  </td></tr>\n\n",
   html "  <!-- title -->\n  <tr><td class=\"pad\" style=\"padding:44px 40px 40px 40px;",
   html "border-bottom:2px solid #201e1d;\">\n    <table role=\"presentation\" ",
   html "cellpadding=\"0\" cellspacing=\"0\" border=\"0\" width=\"100%\">\n",
   html "      <tr><td class=\"h1\" style=\"font-family:Arial,Helvetica,sans-serif;",
   html "font-size:44px;line-height:46px;mso-line-height-rule:exactly;font-weight:bold;",
   html "letter-spacing:-1.2px;color:#201e1d;\">\n        Verify your account\n",
   html "      </td></tr>\n      <tr><td height=\"18\" style=\"height:18px;line-height:18px;",
   html "font-size:0;\">&nbsp;</td></tr>\n      <tr><td ",
   html "style=\"font-family:Arial,Helvetica,sans-serif;font-size:16px;line-height:24px;",
   html "mso-line-height-rule:exactly;color:#514e4c;\">\n        \n",
   html "        Hello <strong style=\"color:#201e1d;\">", given "name" "" "" "there",
   html "</strong> — thanks for signing up for GridTokenX, the peer-to-peer energy trading ",
   html "platform. One last step: confirm this address to activate your account.\n",
   html "      </td></tr>\n    </table>\n  </td></tr>\n\n  <!-- action -->\n",
   html "  <tr><td class=\"pad\" style=\"padding:36px 40px;border-bottom:2px solid #201e1d;",
   html "background:#ffffff;\">\n    <table role=\"presentation\" cellpadding=\"0\" ",
   html "cellspacing=\"0\" border=\"0\">\n      <tr><td bgcolor=\"#ec3013\" ",
   html "style=\"background:#ec3013;border-radius:0;\">\n        <a href=\"",
   .var "verification_url",
   html "\" style=\"display:block;padding:16px 34px;font-family:Arial,Helvetica,sans-serif;",
   html "font-size:15px;line-height:18px;mso-line-height-rule:exactly;font-weight:bold;",
   html "letter-spacing:0.6px;text-transform:uppercase;color:#ffffff;text-decoration:none;\">",
   html "Verify my email</a>\n      </td></tr>\n      <tr><td height=\"14\" ",
   html "style=\"height:14px;line-height:14px;font-size:0;\">&nbsp;</td></tr>\n",
   html "      <tr><td style=\"font-family:Arial,Helvetica,sans-serif;font-size:13px;",
   html "line-height:19px;mso-line-height-rule:exactly;color:#77736f;\">\n",
   html "        You'll be signed in automatically. This link expires in 24&nbsp;hours.\n",
   html "      </td></tr>\n    </table>\n  </td></tr>\n\n  <!-- fallback link -->\n",
   html "  <tr><td class=\"pad\" style=\"padding:28px 40px;background:#f3f2f2;",
   html "border-bottom:2px solid #201e1d;font-family:Arial,Helvetica,sans-serif;",
   html "font-size:13px;line-height:20px;mso-line-height-rule:exactly;color:#77736f;\">\n",
   html "    Button not working? Paste this link into your browser:<br>\n    <a href=\"",
   .var "verification_url",
   html "\" style=\"color:#b8250f;text-decoration:underline;word-break:break-all;\">",
   .var "verification_url",
   html "</a>\n  </td></tr>\n\n  <!-- footer -->\n  <tr><td class=\"pad\" ",
   html "style=\"padding:28px 40px 32px 40px;font-family:Arial,Helvetica,sans-serif;",
   html "font-size:12px;line-height:19px;mso-line-height-rule:exactly;color:#8a8785;\">\n",
   html "    You're receiving this because this address was used to register a GridTokenX ",
   html "account. If that wasn't you, ignore this email — the account stays inactive and no ",
   html "one can sign in with it.<br><br>\n    &copy; 2026 GridTokenX &middot; 1 Market ",
   html "Street, Suite 400, San Francisco, CA 94105<br>\n",
   html "    Automated message &mdash; please do not reply.\n  </td></tr>\n\n</table>\n\n",
   html "</td></tr>\n</table>\n</body>\n</html>\n"]

def welcome : List Piece := base fun
  | .subject => some [html "Welcome to GridTokenX"]
  | .preheader => some
    [html "Your account is active — start trading peer-to-peer energy on Solana."]
  | .title => some [html "Welcome to GridTokenX!"]
  | .subtitle => some [html "Your gateway to decentralized energy trading"]
  | .content => some (
    [html "\n                <p>Hello", given "name" " <strong>" "</strong>" "",
     html ",</p>\n                <p>\n                    Your email is verified and your ",
     html "<strong>GridTokenX</strong> account is now active.\n",
     html "                    You're part of the future of peer-to-peer energy trading ",
     html "powered by the Solana blockchain.\n                </p>\n\n",
     html "                <p class=\"section-label\">Here's what you can do</p>\n",
     html "                <table role=\"presentation\" width=\"100%\" cellpadding=\"0\" ",
     html "cellspacing=\"0\" style=\"margin-bottom: 28px;\">\n                    "] ++
    listRow (quoted "✓") (quoted "Trade renewable energy tokens (GRX) on the marketplace") ++
    [html "\n                    "] ++
    listRow (quoted "✓")
      (quoted "Earn Renewable Energy Certificates (ERCs) for green contributions") ++
    [html "\n                    "] ++
    listRow (quoted "✓") (quoted "Connect smart meters to track on-chain energy generation") ++
    [html "\n                    "] ++
    listRow (quoted "✓") (quoted "Link your Solana wallet for seamless transactions") ++
    [html "\n                </table>\n\n                "] ++
    button (.orDefault "dashboard_url" "https://app.gridtokenx.xyz")
      (quoted "Launch Dashboard") primary primaryGradient ++
    [html "\n"])
  | _ => none

def pages : List (String × List Piece) :=
  [("account_locked.html.tera", accountLocked), ("base.html.tera", base fun _ => none),
   ("confirm_wallet.html.tera", confirmWallet), ("erc_issued.html.tera", ercIssued),
   ("new_login.html.tera", newLogin), ("password_reset.html.tera", passwordReset),
   ("verify_email.html.tera", verifyEmail), ("welcome.html.tera", welcome)]

end HtmlTemplates

end NotiService
